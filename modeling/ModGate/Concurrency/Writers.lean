import ModGate.Concurrency.Interleaving
import ModGate.Gatedb.Failure
import ModGate.Request.Lookup
import ModGate.Tools.Gatelog
import ModGate.Tools.IndexRb

/-! The programs that write to one database: any number of indexers, whose calls interleave, and
the two scripts. Each opens an exclusive transaction; the indexer goes on when that is refused. -/

namespace ModGate.Concurrency

open Sql Database Gatedb Net Request Tools Transition

inductive Session.Outcome (env : IndexEnv) (lock : Lock) (s : Session) : Session → Prop
  | refused (hstart : s.index = .start) : Outcome env lock s { s with index := .begun }
  | opened (hfree : lock = .free) :
      Outcome env lock s { s with index := .begun, working := some s.committed }
  | prepared (hbegun : s.index = .begun) :
      Outcome env lock s { s with index := .scanning s.seen.ids 0 }
  | stopped {n : ℕ} (hfails : env.stepFails n = true ∨ lock = .exclusive) :
      Outcome env lock s { s with index := .scanning [] n }
  | passed {id : ℤ} {pending : List ℤ} {n : ℕ} (hat : s.index = .scanning (id :: pending) n)
      (hrow : ∀ r ∈ s.seen.rows, r.id = id → ¬ Unindexed r) :
      Outcome env lock s { s with index := .scanning pending n }
  | updated {r : IpRow} {a e : String} {fails : Bool} {pending : List ℤ} {n : ℕ}
      (hat : s.index = .scanning (r.id :: pending) n) (hlock : lock ≠ .exclusive)
      (hmem : r ∈ s.seen.rows) (hu : Unindexed r) (hs : r.startText = some a)
      (he : r.endText = some e) (hfails : fails = true → env.updateFails n = true ∨
        s.working = none) : Outcome env lock s
        { s.write (Iteration.apply ⟨r, a, e, env.ipvalue n, fails⟩ s.seen) with
          index := .scanning pending (n + 1) }
  | left (code : Option ℤ) : Outcome env lock s (s.exit code s.committed)
  | finished {n : ℕ} (hat : s.index = .scanning [] n) :
      Outcome env lock s (s.exit (some 0) s.seen)
  | exited (code : Option ℤ) (hat : s.index = .exited code) : Outcome env lock s s

lemma Session.next_outcome (env : IndexEnv) (lock : Lock) (s : Session) :
    s.Outcome env lock (s.next env lock) := by
  obtain ⟨committed, working, index⟩ := s
  cases index with
  | start =>
    simp only [next]
    split
    · exact .left (some 1)
    · split
      · exact .refused rfl
      · next hbegin =>
        apply Outcome.opened
        simp only [ne_eq, Bool.or_eq_true, decide_eq_true_eq, not_or, not_not] at hbegin
        exact hbegin.2
  | begun =>
    simp only [next]
    split
    · exact .left none
    · exact .prepared rfl
  | scanning pending n =>
    cases pending with
    | nil =>
      simp only [next]
      split
      · exact .left (some 0)
      · exact .finished rfl
    | cons id pending =>
      simp only [next]
      split
      · next hstop => exact .stopped (by simpa using hstop)
      next hstop =>
      simp only [Bool.or_eq_true, decide_eq_true_eq, not_or] at hstop
      split
      · next hfind =>
        exact .passed rfl fun r hr hid => absurd hid (IpTable.find_eq_none hfind r hr)
      next r hfind =>
      obtain ⟨hmem, rfl⟩ := IpTable.find_eq_some hfind
      split
      · next hu =>
        split
        · next a e hs he =>
          refine .updated rfl hstop.2 hmem hu hs he fun hfails => ?_
          simp only [Bool.or_eq_true, Bool.and_eq_true, Option.isNone_iff_eq_none] at hfails
          exact hfails.imp_right And.left
        · exact .left none
      · next hu =>
        exact .passed rfl fun q hq hid => by rwa [IpTable.eq_of_id_eq _ hq hmem hid]
  | exited code => exact .exited code rfl

/-- `owner` is the process that has the exclusive transaction, with the table of the transaction. -/
structure Shared (ι : Type) where
  committed : IpTable
  owner : Option (ι × IpTable)
  process : ι → Progress

namespace Shared

variable {ι : Type} [DecidableEq ι]

def initial (t : IpTable) : Shared ι := ⟨t, none, fun _ => .start⟩

def session (s : Shared ι) (i : ι) : Session where
  committed := s.committed
  working := (s.owner.filter fun o => o.1 = i).map Prod.snd
  index := s.process i

def lock (s : Shared ι) (i : ι) (reader : Bool) : Lock :=
  if s.owner.any fun o => o.1 ≠ i then .exclusive else if reader then .shared else .free

def put (s : Shared ι) (i : ι) (session : Session) : Shared ι where
  committed := session.committed
  owner := (session.working.map fun t => (i, t)).or (s.owner.filter fun o => o.1 ≠ i)
  process := Function.update s.process i session.index

def script (s : Shared ι) (undone : Bool) (f : IpTable → IpTable) : Shared ι :=
  if s.owner.isSome || undone then s else { s with committed := f s.committed }

end Shared

/-- A step of one of the writers. `reader` says whether another connection reads the file. The
transaction of a script is one step, since nobody else touches the file during it. A statement of
a script that fails is taken to raise an exception: a refused `BEGIN EXCLUSIVE` ends the script,
and so does `undone`, a failure of that call or a later one. -/
inductive Writer (ι : Type)
  | gatedb (i : ι) (reader : Bool)
  | gatelog (undone : Bool) (log : List LogLine)
  | indexRb (undone : Bool)

def Shared.step {ι : Type} [DecidableEq ι] (env : ι → IndexEnv) (ipAddr : String → Option ℕ) :
    Writer ι → Shared ι → Shared ι
  | .gatedb i reader, s => s.put i ((s.session i).next (env i) (s.lock i reader))
  | .gatelog undone log, s => s.script undone (processLog true log)
  | .indexRb undone, s => s.script undone (indexRb ipAddr)

/-- The bounds of the row are missing, or they are the addresses of its own texts. -/
def Truthful (r : IpRow) : Prop :=
  ∃ a b, Names r a b ∧ (Blank r.startBound ∧ Blank r.endBound ∨
    r.startBound = .integer a.value ∧ r.endBound = .integer b.value)

def Faithful (t : IpTable) : Prop := ∀ r ∈ t.rows, Value.Fits32 r.id ∧ Truthful r

def described (r : IpRow) : IpRow := { r with startBound := .null, endBound := .null }

lemma blank_plain {v : Value} (h : Blank v) : PlainBound v := by
  rcases h with rfl | rfl
  · exact Or.inl rfl
  · exact Or.inr (Or.inl rfl)

lemma Truthful.plain {r : IpRow} (h : Truthful r) :
    PlainBound r.startBound ∧ PlainBound r.endBound := by
  obtain ⟨a, b, -, ⟨hs, he⟩ | ⟨hs, he⟩⟩ := h
  · exact ⟨blank_plain hs, blank_plain he⟩
  · exact ⟨Or.inr (Or.inr ⟨_, hs⟩), Or.inr (Or.inr ⟨_, he⟩)⟩

/-- One row before and after a step: as it was, or with the addresses of its texts. -/
def Rewritten (r r' : IpRow) : Prop := r' = r ∨ ∃ a b, Names r a b ∧ r' = withBounds r a b

def Rewrites (t u : IpTable) : Prop := List.Forall₂ Rewritten t.rows u.rows

lemma Rewritten.described {r r' : IpRow} (h : Rewritten r r') :
    described r' = Concurrency.described r := by
  rcases h with rfl | ⟨a, b, -, rfl⟩
  · rfl
  · rfl

lemma Rewritten.truthful {r r' : IpRow} (h : Rewritten r r') (hr : Truthful r) : Truthful r' := by
  rcases h with rfl | ⟨a, b, hnames, rfl⟩
  · exact hr
  · exact ⟨a, b, hnames, Or.inr ⟨rfl, rfl⟩⟩

lemma Rewrites.refl (t : IpTable) : Rewrites t t := List.forall₂_same.mpr fun _ _ => Or.inl rfl

lemma rewritten_described {rows rows' : List IpRow} (h : List.Forall₂ Rewritten rows rows') :
    rows'.map described = rows.map described := by
  induction h with
  | nil => rfl
  | cons hrow _ ih => rw [List.map_cons, List.map_cons, hrow.described, ih]

lemma Rewrites.faithful {t u : IpTable} (h : Rewrites t u) (ht : Faithful t) : Faithful u := by
  intro r' hr'
  obtain ⟨k, hk, rfl⟩ := List.getElem_of_mem hr'
  have hlength := List.Forall₂.length_eq h
  have hrow : Rewritten (t.rows[k]) (u.rows[k]) := List.Forall₂.get h _ hk
  obtain ⟨hid, htruth⟩ := ht _ (List.getElem_mem (show k < t.rows.length by omega))
  have hsame : (described u.rows[k]).id = (described t.rows[k]).id :=
    congrArg IpRow.id hrow.described
  change (u.rows[k]).id = (t.rows[k]).id at hsame
  exact ⟨hsame ▸ hid, hrow.truthful htruth⟩

lemma iteration_rewrites {t : IpTable} (ht : Faithful t) {r : IpRow} (hr : r ∈ t.rows)
    {a e : String} (hs : r.startText = some a) (he : r.endText = some e) (ipvalue : InAddr)
    (fails : Bool) : Rewrites t (Iteration.apply ⟨r, a, e, ipvalue, fails⟩ t) := by
  obtain ⟨hid, a', b', hnames, -⟩ := ht r hr
  have hstart : inetPton a = some a' := by simpa [hs] using hnames.1
  have hend : inetPton e = some b' := by simpa [he] using hnames.2
  cases fails with
  | true => exact Rewrites.refl t
  | false =>
    apply List.forall₂_map_right_iff.mpr
    apply List.forall₂_same.mpr
    intro q hq
    by_cases hq' : q.id = (Iteration.mk r a e ipvalue false).recordId
    · obtain rfl := t.eq_of_id_eq hq hr (hq'.trans (target_eq_id hid))
      rw [if_pos hq']
      refine Or.inr ⟨a', b', hnames, ?_⟩
      simp [Iteration.setBounds, Iteration.startAddr, Iteration.endAddr, Iteration.afterStart,
        Iteration.afterEnd, hstart, hend, withBounds]
    · rw [if_neg hq']
      exact Or.inl rfl

lemma complete_rewritten {r : IpRow} (h : Truthful r) : Rewritten r (complete r) := by
  obtain ⟨a, b, hnames, hbounds⟩ := h
  rw [complete, hnames.ownBounds]
  rcases hbounds with ⟨hs, he⟩ | ⟨hs, he⟩
  · refine Or.inr ⟨a, b, hnames, ?_⟩
    simp [assign, hs, he, withBounds]
  · have hstart : ¬ Blank r.startBound := by simp [hs, Blank]
    have hend : ¬ Blank r.endBound := by simp [he, Blank]
    simp only [hstart, hend, if_false]
    exact Or.inl rfl

lemma indexRb_rewrites {ipAddr : String → Option ℕ}
    (hip : ∀ s a, inetPton s = some a → ipAddr s = some a.value) {t : IpTable}
    (ht : Faithful t) : Rewrites t (indexRb ipAddr t) := by
  have hown : ∀ r ∈ t.rows, (ownBounds r).isSome := by
    intro r hr
    obtain ⟨-, a, b, hnames, -⟩ := ht r hr
    rw [hnames.ownBounds]
    rfl
  unfold Rewrites
  rw [indexRb_rows hip hown, List.forall₂_map_right_iff, List.forall₂_same]
  exact fun r hr => complete_rewritten (ht r hr).2

/-- The table with new rows behind its own. -/
def Extends (t u : IpTable) : Prop := ∃ rows, u.rows = t.rows ++ rows ∧ ∀ r ∈ rows, Truthful r

lemma foldlM_invariant {α β : Type*} {f : β → α → Option β} {inv : β → Prop} {l : List α}
    (hf : ∀ a ∈ l, ∀ b c, inv b → f b a = some c → inv c) {b c : β} (hb : inv b)
    (h : l.foldlM f b = some c) : inv c := by
  induction l generalizing b with
  | nil =>
    cases h
    exact hb
  | cons a l ih =>
    rw [List.foldlM_cons] at h
    obtain ⟨d, hd, hl⟩ := Option.bind_eq_some_iff.mp h
    have hd := hf a List.mem_cons_self b d hb hd
    exact ih (fun a' ha' => hf a' (List.mem_cons_of_mem a ha')) hd hl

lemma offenderRow_truthful {ip : String} (hip : (inetPton ip).isSome) (note : String) (id : ℤ) :
    Truthful (offenderRow ip note id) := by
  obtain ⟨a, ha⟩ := Option.isSome_iff_exists.mp hip
  exact ⟨a, a, ⟨ha, ha⟩, Or.inl ⟨Or.inl rfl, Or.inl rfl⟩⟩

lemma blockIP_extends {raises : Bool} {ip note : String} (hip : (inetPton ip).isSome)
    (t u v : IpTable) (hu : Extends t u) (h : blockIP raises ip u note = some v) :
    Extends t v := by
  obtain ⟨rows, hrows, htruth⟩ := hu
  unfold blockIP at h
  split at h
  · cases h
    exact ⟨rows, hrows, htruth⟩
  · by_cases hcols : ∀ c ∈ [Column.startText, .endText, .httpCode, .note], c ∈ u.columns
    · obtain ⟨u', id, hins, -, hu'⟩ :=
        IpTable.insert_present hcols (offenderRow ip note) fun _ => rfl
      rw [hins] at h
      cases h
      refine ⟨rows ++ [offenderRow ip note id], by rw [hu', hrows, List.append_assoc], ?_⟩
      intro r hr
      rcases List.mem_append.mp hr with hr | hr
      · exact htruth r hr
      · rw [List.mem_singleton.mp hr]
        exact offenderRow_truthful hip note id
    · have hins : u.insert [.startText, .endText, .httpCode, .note] (offenderRow ip note)
          (fun _ => rfl) = none := if_neg hcols
      rw [hins] at h
      cases raises with
      | true => cases h
      | false =>
        cases h
        exact ⟨rows, hrows, htruth⟩

lemma processLog_extends {log : List LogLine}
    (hlog : ∀ line ∈ log, (inetPton (strip line.host)).isSome) (raises : Bool) (t : IpTable) :
    Extends t (processLog raises log t) := by
  have hrefl : Extends t t := ⟨[], (List.append_nil _).symm, fun _ hr => absurd hr List.not_mem_nil⟩
  unfold processLog
  cases hp : log.foldlM (processLine raises) t with
  | none => exact hrefl
  | some u =>
    apply foldlM_invariant _ hrefl hp
    intro line hline b c hb hc
    exact foldlM_invariant (fun note _ b c => blockIP_extends (hlog line hline) t b c) hb hc

lemma Rewritten.trans {r r' r'' : IpRow} (h : Rewritten r r') (h' : Rewritten r' r'') :
    Rewritten r r'' := by
  rcases h' with rfl | ⟨a, b, hnames, rfl⟩
  · exact h
  · rcases h with rfl | ⟨a', b', -, rfl⟩
    · exact Or.inr ⟨a, b, hnames, rfl⟩
    · exact Or.inr ⟨a, b, hnames, rfl⟩

lemma rewritten_trans {rows rows' rows'' : List IpRow} (h : List.Forall₂ Rewritten rows rows')
    (h' : List.Forall₂ Rewritten rows' rows'') : List.Forall₂ Rewritten rows rows'' := by
  induction h generalizing rows'' with
  | nil => exact h'
  | cons hrow _ ih =>
    cases h' with
    | cons hrow' hrest => exact .cons (hrow.trans hrow') (ih hrest)

/-- No row of `t` is lost, and the rows answer for their own texts, in the file and in the
transaction. -/
structure Session.Kept (t : IpTable) (s : Session) : Prop where
  faithful : Faithful s.committed
  described : t.rows.map described <+: s.committed.rows.map Concurrency.described
  working : ∀ u, s.working = some u → Rewrites s.committed u

/-- The cursor still has every row before it that needs bounds. -/
def Session.Thorough (s : Session) : Prop :=
  ∀ pending n, s.index = .scanning pending n → ∀ r ∈ s.seen.rows, Unindexed r → r.id ∈ pending

namespace Session

variable {env : IndexEnv} {lock : Lock} {t : IpTable} {s s' : Session}

lemma Kept.seen (h : s.Kept t) : Rewrites s.committed s.seen := by
  cases hw : s.working with
  | none =>
    rw [Session.seen, hw]
    exact Rewrites.refl _
  | some u =>
    rw [Session.seen, hw]
    exact h.working u hw

lemma Kept.write (h : s.Kept t) {u : IpTable} (hu : Rewrites s.seen u) (index : Progress) :
    Kept t { s.write u with index := index } := by
  have hall := rewritten_trans h.seen hu
  obtain ⟨committed, working, index'⟩ := s
  cases working with
  | none =>
    refine ⟨Rewrites.faithful hall h.faithful, ?_, fun _ hw => by cases hw⟩
    change t.rows.map _ <+: u.rows.map _
    rw [rewritten_described hall]
    exact h.described
  | some v => exact ⟨h.faithful, h.described, fun _ hw => by cases hw; exact hall⟩

lemma Kept.exit (h : s.Kept t) (code : Option ℤ) {u : IpTable} (hu : Rewrites s.committed u) :
    Kept t (s.exit code u) := by
  refine ⟨hu.faithful h.faithful, ?_, fun _ hw => by cases hw⟩
  change t.rows.map _ <+: u.rows.map _
  rw [rewritten_described hu]
  exact h.described

lemma Outcome.kept (h : s.Outcome env lock s') (hk : s.Kept t) : s'.Kept t := by
  cases h with
  | refused => exact ⟨hk.faithful, hk.described, hk.working⟩
  | opened => exact ⟨hk.faithful, hk.described, fun u hu => by cases hu; exact Rewrites.refl _⟩
  | prepared => exact ⟨hk.faithful, hk.described, hk.working⟩
  | stopped => exact ⟨hk.faithful, hk.described, hk.working⟩
  | passed => exact ⟨hk.faithful, hk.described, hk.working⟩
  | updated _ _ hmem _ hs he =>
    apply hk.write
    exact iteration_rewrites (hk.seen.faithful hk.faithful) hmem hs he _ _
  | left code => exact hk.exit code (Rewrites.refl _)
  | finished => exact hk.exit (some 0) hk.seen
  | exited => exact hk

lemma Outcome.locked_out (h : s.Outcome env .exclusive s') (hw : s.working = none) :
    s'.committed = s.committed ∧ s'.working = none := by
  cases h with
  | refused => exact ⟨rfl, hw⟩
  | opened hfree => cases hfree
  | prepared => exact ⟨rfl, hw⟩
  | stopped => exact ⟨rfl, hw⟩
  | passed => exact ⟨rfl, hw⟩
  | updated _ hlock => exact absurd rfl hlock
  | left => exact ⟨rfl, rfl⟩
  | finished => exact ⟨by simp [exit, seen, hw], rfl⟩
  | exited => exact ⟨rfl, hw⟩

lemma Outcome.thorough (h : s.Outcome env lock s') (hk : s.Kept t) (hn : env.NoFailure)
    (hlock : lock = .exclusive → s.working = none) (hs : s.working ≠ none → s.Thorough)
    (hw : s'.working ≠ none) : s'.Thorough := by
  cases h with
  | refused => exact fun pending n hat => by cases hat
  | opened => exact fun pending n hat => by cases hat
  | prepared =>
    intro pending n hat r hr _
    cases hat
    exact List.mem_map_of_mem hr
  | stopped hfails =>
    rcases hfails with hfails | hfails
    · rw [hn.stepped] at hfails
      cases hfails
    · exact absurd (hlock hfails) hw
  | passed hat hrow =>
    intro pending' n' hat' r hr hu
    cases hat'
    rcases List.mem_cons.mp (hs hw _ _ hat r hr hu) with hid | hmem
    · exact absurd hu (hrow r hr hid)
    · exact hmem
  | @updated r a e fails pending n hat _ hmem _ _ _ hfails =>
    obtain ⟨committed, working, index⟩ := s
    cases working with
    | none => exact absurd rfl hw
    | some v =>
      obtain rfl : fails = false := by
        by_contra hf
        rcases hfails (by simpa using hf) with hf | hf
        · rw [hn.updated] at hf
          cases hf
        · cases hf
      intro pending' n' hat' q hq hu
      cases hat'
      change q ∈ (Iteration.apply ⟨r, a, e, env.ipvalue n, false⟩ v).rows at hq
      have hid := ((hk.seen.faithful hk.faithful) r hmem).1
      rcases (Iteration.mem_apply rfl).mp hq with ⟨hq, hne⟩ | ⟨q', -, -, rfl⟩
      · rcases List.mem_cons.mp (hs (Option.some_ne_none v) _ _ hat q hq hu) with hqid | hqid
        · exact absurd (hqid.trans (target_eq_id hid).symm) hne
        · exact hqid
      · exact absurd hu (Iteration.setBounds_indexed _ q')
  | left => exact absurd rfl hw
  | finished => exact absurd rfl hw
  | exited => exact hs hw

end Session

namespace Shared

variable {ι : Type} [DecidableEq ι] {env : ι → IndexEnv} {ipAddr : String → Option ℕ}
  {t : IpTable} {s : Shared ι}

structure Kept (t : IpTable) (s : Shared ι) : Prop where
  faithful : Faithful s.committed
  described : t.rows.map described <+: s.committed.rows.map Concurrency.described
  owned : ∀ i u, s.owner = some (i, u) → Rewrites s.committed u

def Thorough (env : ι → IndexEnv) (s : Shared ι) : Prop :=
  ∀ i u, s.owner = some (i, u) → (env i).NoFailure → (s.session i).Thorough

lemma session_working {i : ι} {u : IpTable} :
    (s.session i).working = some u ↔ s.owner = some (i, u) := by
  obtain ⟨committed, owner, process⟩ := s
  cases owner with
  | none => simp [session]
  | some o =>
    obtain ⟨j, v⟩ := o
    by_cases hj : j = i
    · simp [session, Option.filter, hj]
    · simp [session, Option.filter, hj]

lemma session_locked {i j : ι} {u : IpTable} (hj : j ≠ i) (h : s.owner = some (j, u))
    (reader : Bool) : s.lock i reader = .exclusive ∧ (s.session i).working = none := by
  simp [lock, session, h, hj, Option.filter]

lemma lock_exclusive {i : ι} {reader : Bool} (h : s.lock i reader = .exclusive) :
    (s.session i).working = none := by
  obtain ⟨committed, owner, process⟩ := s
  cases owner with
  | none => rfl
  | some o =>
    by_cases ho : o.1 = i
    · cases reader <;> simp [lock, ho] at h
    · simp [session, Option.filter, ho]

lemma put_owner {i j : ι} {u : IpTable} {session : Session}
    (h : (s.put i session).owner = some (j, u)) :
    j = i ∧ session.working = some u ∨ j ≠ i ∧ s.owner = some (j, u) := by
  unfold put at h
  cases hw : session.working with
  | none =>
    simp only [hw, Option.map_none, Option.none_or, Option.filter_eq_some_iff,
      decide_eq_true_eq] at h
    exact Or.inr h.symm
  | some v =>
    simp only [hw, Option.map_some, Option.some_or, Option.some.injEq, Prod.mk.injEq] at h
    obtain ⟨rfl, rfl⟩ := h
    exact Or.inl ⟨rfl, rfl⟩

lemma Kept.session (h : s.Kept t) (i : ι) : (s.session i).Kept t where
  faithful := h.faithful
  described := h.described
  working := fun u hu => h.owned i u (session_working.mp hu)

-- Nobody else changes anything while a process has its transaction.
lemma put_locked {i j : ι} {u : IpTable} (hj : j ≠ i) (h : s.owner = some (j, u))
    (env : IndexEnv) (reader : Bool) :
    ((s.session i).next env (s.lock i reader)).committed = s.committed := by
  obtain ⟨hlock, hw⟩ := session_locked hj h reader
  rw [hlock]
  exact (((s.session i).next_outcome env .exclusive).locked_out hw).1

lemma Kept.gatedb (h : s.Kept t) (env : IndexEnv) (i : ι) (reader : Bool) :
    (s.put i ((s.session i).next env (s.lock i reader))).Kept t := by
  have hkept := ((s.session i).next_outcome env (s.lock i reader)).kept (h.session i)
  refine ⟨hkept.faithful, hkept.described, fun j u hu => ?_⟩
  rcases put_owner hu with ⟨-, hw⟩ | ⟨hj, howner⟩
  · exact hkept.working u hw
  · have hsame := put_locked hj howner env reader
    change Rewrites ((s.session i).next env (s.lock i reader)).committed u
    rw [hsame]
    exact h.owned j u howner

lemma session_put_self (s : Shared ι) (i : ι) (session : Session) :
    (s.put i session).session i = session := by
  obtain ⟨committed, working, index⟩ := session
  cases working with
  | none => simp [Shared.session, put, Option.filter_filter]
  | some u => simp [Shared.session, put, Option.filter]

lemma session_put_other {i j : ι} (hj : j ≠ i) {session : Session}
    (hcommitted : session.committed = s.committed)
    (howner : (s.put i session).owner = s.owner) : (s.put i session).session j = s.session j := by
  simp only [Shared.session, howner]
  simp only [put, hcommitted, Function.update_of_ne hj]

lemma Thorough.gatedb (h : s.Thorough env) (hk : s.Kept t) (i : ι) (reader : Bool) :
    (s.put i ((s.session i).next (env i) (s.lock i reader))).Thorough env := by
  intro j u hu hn
  rcases put_owner hu with ⟨rfl, hw⟩ | ⟨hj, howner⟩
  · rw [session_put_self]
    apply ((s.session j).next_outcome (env j) (s.lock j reader)).thorough (hk.session j) hn
      lock_exclusive
    · intro hw
      obtain ⟨v, hv⟩ := Option.ne_none_iff_exists'.mp hw
      exact h j v (session_working.mp hv) hn
    · rw [hw]
      exact Option.some_ne_none u
  · rw [session_put_other hj (put_locked hj howner (env i) reader) (hu.trans howner.symm)]
    exact h j u howner hn

/-- The hosts of a log are addresses, and the rowids stay within 32 bits. -/
def Admitted : Writer ι → Shared ι → Prop
  | .gatelog _ log, s => (∀ line ∈ log, (inetPton (strip line.host)).isSome) ∧
      ∀ r ∈ (processLog true log s.committed).rows, Value.Fits32 r.id
  | _, _ => True

omit [DecidableEq ι] in
lemma Kept.gatelog (h : s.Kept t) {undone : Bool} {log : List LogLine}
    (hp : Admitted (.gatelog undone log) s) (howner : s.owner = none) :
    Kept t { s with committed := processLog true log s.committed } := by
  obtain ⟨rows, hrows, htruth⟩ := processLog_extends hp.1 true s.committed
  refine ⟨fun r hr => ⟨hp.2 r hr, ?_⟩, ?_, fun i u hu => ?_⟩
  · change r ∈ (processLog true log s.committed).rows at hr
    rw [hrows] at hr
    rcases List.mem_append.mp hr with hr | hr
    · exact (h.faithful r hr).2
    · exact htruth r hr
  · change _ <+: (processLog true log s.committed).rows.map _
    rw [hrows, List.map_append]
    exact h.described.trans (List.prefix_append _ _)
  · rw [howner] at hu
    cases hu

omit [DecidableEq ι] in
lemma Kept.indexRb (h : s.Kept t) (hip : ∀ s a, inetPton s = some a → ipAddr s = some a.value)
    (howner : s.owner = none) :
    Kept t { s with committed := Tools.indexRb ipAddr s.committed } := by
  have hrewrites := indexRb_rewrites hip h.faithful
  refine ⟨hrewrites.faithful h.faithful, ?_, fun i u hu => ?_⟩
  · change _ <+: (Tools.indexRb ipAddr s.committed).rows.map _
    rw [rewritten_described hrewrites]
    exact h.described
  · rw [howner] at hu
    cases hu

omit [DecidableEq ι] in
lemma unowned {undone : Bool} (h : ¬ (s.owner.isSome || undone) = true) : s.owner = none := by
  simp only [Bool.or_eq_true, not_or] at h
  simpa using h.1

lemma kept_step (hip : ∀ s a, inetPton s = some a → ipAddr s = some a.value) (p : Writer ι)
    (s : Shared ι) (hp : Admitted p s) (h : s.Kept t ∧ s.Thorough env) :
    (step env ipAddr p s).Kept t ∧ (step env ipAddr p s).Thorough env := by
  obtain ⟨hk, ht⟩ := h
  cases p with
  | gatedb i reader => exact ⟨hk.gatedb (env i) i reader, ht.gatedb hk i reader⟩
  | gatelog undone log =>
    simp only [step, script]
    split
    · exact ⟨hk, ht⟩
    · next hfree =>
      have howner := unowned hfree
      exact ⟨hk.gatelog hp howner, fun i u hu => by cases hu.symm.trans howner⟩
  | indexRb undone =>
    simp only [step, script]
    split
    · exact ⟨hk, ht⟩
    · next hfree =>
      have howner := unowned hfree
      exact ⟨hk.indexRb hip howner, fun i u hu => by cases hu.symm.trans howner⟩

lemma kept_run (hip : ∀ s a, inetPton s = some a → ipAddr s = some a.value) (ht : Faithful t)
    {schedule : List (Writer ι)} (hrun : Along (step env ipAddr) Admitted schedule (initial t)) :
    (run (step env ipAddr) schedule (initial t)).Kept t ∧
      (run (step env ipAddr) schedule (initial t)).Thorough env := by
  apply run_invariant (kept_step hip) hrun
  exact ⟨⟨ht, List.prefix_refl _, fun i u hu => by cases hu⟩, fun i u hu => by cases hu⟩

def view (w : World) (path : String) (s : Shared ι) : World :=
  match s.owner with
  | none => onTable w path s.committed
  | some _ => onFile w path ⟨(w.sqlite path).openError, some busy, some busy.1, s.committed⟩

end Shared

lemma Truthful.lookupWhere {row : IpRow} (h : Truthful row) {addr : ℕ}
    (hw : (lookupWhere addr).Holds row.cells) :
    ∃ a b, Names row a b ∧ b.value ≤ addr ∧ addr ≤ a.value := by
  obtain ⟨a, b, hnames, ⟨-, he⟩ | ⟨hs, he⟩⟩ := h
  · rcases he with he | he
    · simp [Request.lookupWhere, Term.eval, IpRow.cells, he] at hw
    · simp [Request.lookupWhere, Term.eval, IpRow.cells, he, Comparison.test] at hw
  · refine ⟨a, b, hnames, ?_⟩
    simp [Request.lookupWhere, Term.eval, IpRow.cells, hs, he] at hw
    omega

lemma Truthful.complete {row : IpRow} (h : Truthful row) (hu : ¬ Unindexed row) :
    ∃ a b, Names row a b ∧ row = withBounds row a b := by
  have hplain := h.plain
  obtain ⟨a, b, hnames, ⟨hs, -⟩ | ⟨hs, he⟩⟩ := h
  · exact absurd ((unindexed_iff_blank hplain.1 hplain.2).mpr (Or.inl hs)) hu
  · refine ⟨a, b, hnames, ?_⟩
    rw [withBounds, ← hs, ← he]

section Answers

variable {ι : Type} [DecidableEq ι] {env : ι → IndexEnv} {ipAddr : String → Option ℕ}

omit [DecidableEq ι] in
lemma Shared.view_table (s : Shared ι) (w : World) (path : String) :
    ((s.view w path).sqlite path).table = s.committed := by
  unfold Shared.view
  split <;> simp [onTable, onFile]

-- A request that gets into a transaction does not reach its query.
omit [DecidableEq ι] in
lemma Shared.unowned_of_queried (s : Shared ι) {w : World} {r : RequestRec} {path : String}
    {addr : ℕ} (hq : Queried (s.view w path) r path addr) : s.owner = none := by
  cases ho : s.owner with
  | none => rfl
  | some o =>
    have hprepared := hq.prepared
    simp [view, ho, onFile] at hprepared

theorem rows_answer_for_their_texts
    (hip : ∀ s a, inetPton s = some a → ipAddr s = some a.value) {t : IpTable} (ht : Faithful t)
    {schedule : List (Writer ι)}
    (hrun : Along (Shared.step env ipAddr) Shared.Admitted schedule (.initial t)) :
    let s := run (Shared.step env ipAddr) schedule (.initial t)
    t.rows.map described <+: s.committed.rows.map described ∧
      ∀ w r path addr, Queried (s.view w path) r path addr → s.owner = none ∧
        ((gateRequestHandler (s.view w path) r).1 = OK →
        ∃ row ∈ s.committed.rows, ∃ a b, Names row a b ∧ b.value ≤ addr ∧ addr ≤ a.value ∧
          (gateRequestHandler (s.view w path) r).2.status = row.httpCode.columnInt) := by
  intro s
  obtain ⟨hkept, -⟩ := Shared.kept_run hip ht hrun
  refine ⟨hkept.described, fun w r path addr hq => ⟨s.unowned_of_queried hq, fun hblocked => ?_⟩⟩
  cases hl : lookup ((s.view w path).sqlite path).table addr with
  | none =>
    rw [(handler_not_found hq hl).1] at hblocked
    cases hblocked
  | some row =>
    obtain ⟨hmem, hholds⟩ := selectFirst_holds _ hl
    rw [Shared.view_table] at hmem
    obtain ⟨a, b, hnames, hb, ha⟩ := (hkept.faithful row hmem).2.lookupWhere hholds
    exact ⟨row, hmem, a, b, hnames, hb, ha, (handler_found hq hl).2.1⟩

lemma Shared.commit_eq {s : Shared ι} {i : ι} (hn : (env i).NoFailure) {u : IpTable} {n : ℕ}
    (howner : s.owner = some (i, u)) (hat : s.process i = .scanning [] n) (reader : Bool) :
    Shared.step env ipAddr (.gatedb i reader) s = ⟨u, none, Function.update s.process i
      (.exited (some 0))⟩ := by
  have hw := Shared.session_working.mpr howner
  have hnext : (s.session i).next (env i) (s.lock i reader) =
      (s.session i).exit (some 0) u := by
    have hi : (s.session i).index = .scanning [] n := hat
    simp [Session.next, hi, hn.committed, Session.seen, hw]
  simp [Shared.step, hnext, Shared.put, Session.exit, howner, Option.filter]

lemma Shared.owned_complete {s : Shared ι} {t : IpTable} (hkept : s.Kept t)
    (hthorough : s.Thorough env) {i : ι} (hn : (env i).NoFailure) {u : IpTable} {n : ℕ}
    (howner : s.owner = some (i, u)) (hat : s.process i = .scanning [] n) :
    ∀ row ∈ u.rows, ∃ a b, Names row a b ∧ row = withBounds row a b := by
  intro row hrow
  have hw := Shared.session_working.mpr howner
  apply (((hkept.owned i u howner).faithful hkept.faithful) row hrow).2.complete
  intro hu
  have hmem := hthorough i u howner hn [] n hat row (by rwa [Session.seen, hw]) hu
  exact absurd hmem List.not_mem_nil

lemma quadToInt_address (s : String) (a : InAddr) (h : inetPton s = some a) :
    quadToInt s = some a.value := by
  rw [quadToInt, h, Option.map_some]

lemma offender_faithful : Faithful (oneRow (offenderRow "10.0.0.7" "Baidu" 1)) := by
  intro r hr
  obtain rfl := List.mem_singleton.mp hr
  exact ⟨by decide, offenderRow_truthful (by decide) _ _⟩

def interleaved : List (Writer Bool) :=
  [.gatedb true false, .gatedb false false, .gatedb true false, .gatedb true false,
    .gatedb false false]

theorem offender_blocked_by_its_texts :
    let s := run (Shared.step (fun _ => calmIndex) quadToInt) (interleaved ++ [.gatedb true false])
      (.initial (oneRow (offenderRow "10.0.0.7" "Baidu" 1)))
    let w := s.view (calmWorld emptyIp) "/etc/apache2/gate.db"
    (gateRequestHandler w (gatedRequest "10.0.0.7")).1 = OK ∧
      ∃ row ∈ s.committed.rows, ∃ a b, Names row a b ∧ b.value ≤ 167772167 ∧
        167772167 ≤ a.value ∧
        (gateRequestHandler w (gatedRequest "10.0.0.7")).2.status = row.httpCode.columnInt := by
  intro s w
  have hblocked : (gateRequestHandler w (gatedRequest "10.0.0.7")).1 = OK := by decide
  have hq : Queried w (gatedRequest "10.0.0.7") "/etc/apache2/gate.db" 167772167 := by
    refine ⟨⟨?_, by rfl⟩, by decide, ⟨⟨10, 0, 0, 7⟩, by decide, by decide⟩, by decide, by decide⟩
    rintro ⟨p, _, hp⟩
    cases hp
  refine ⟨hblocked, ((rows_answer_for_their_texts quadToInt_address
    offender_faithful ?_).2 _ _ _ _ hq).2 hblocked⟩
  exact ⟨trivial, trivial, trivial, trivial, trivial, trivial, trivial⟩

theorem commit_completes
    (hip : ∀ s a, inetPton s = some a → ipAddr s = some a.value) {t : IpTable} (ht : Faithful t)
    {schedule : List (Writer ι)}
    (hrun : Along (Shared.step env ipAddr) Shared.Admitted schedule (.initial t)) {i : ι}
    (hn : (env i).NoFailure) {u : IpTable} {n : ℕ}
    (howner : (run (Shared.step env ipAddr) schedule (.initial t)).owner = some (i, u))
    (hat : (run (Shared.step env ipAddr) schedule (.initial t)).process i = .scanning [] n)
    (reader : Bool) :
    let s := run (Shared.step env ipAddr) (schedule ++ [.gatedb i reader]) (.initial t)
    s.process i = .exited (some 0) ∧ s.owner = none ∧
      t.rows.map described <+: s.committed.rows.map described ∧
      ∀ row ∈ s.committed.rows, ∃ a b, Names row a b ∧ row = withBounds row a b := by
  intro s
  obtain ⟨hkept, hthorough⟩ := Shared.kept_run hip ht hrun
  have hs : s = Shared.step env ipAddr (.gatedb i reader)
      (run (Shared.step env ipAddr) schedule (.initial t)) := run_append _ _ _
  rw [Shared.commit_eq hn howner hat] at hs
  rw [hs]
  refine ⟨Function.update_self _ _ _, rfl, ?_, Shared.owned_complete hkept hthorough hn howner hat⟩
  rw [rewritten_described (hkept.owned i u howner)]
  exact hkept.described

theorem offender_completed :
    let s := run (Shared.step (fun _ => calmIndex) quadToInt) (interleaved ++ [.gatedb true false])
      (.initial (oneRow (offenderRow "10.0.0.7" "Baidu" 1)))
    ∀ row ∈ s.committed.rows, ∃ a b, Names row a b ∧ row = withBounds row a b := by
  have hrun : Along (Shared.step (fun _ => calmIndex) quadToInt) Shared.Admitted interleaved
      (.initial (oneRow (offenderRow "10.0.0.7" "Baidu" 1))) :=
    ⟨trivial, trivial, trivial, trivial, trivial, trivial⟩
  exact (commit_completes (i := true) quadToInt_address offender_faithful hrun
    calmIndex_noFailure (by rfl) (by rfl) false).2.2.2

end Answers

end ModGate.Concurrency
