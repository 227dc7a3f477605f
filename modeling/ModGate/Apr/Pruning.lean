import ModGate.Apr.Rmdir
import Mathlib.Data.List.Count

/-! What calls of `apr::rmdir` leave of a directory tree. None leaves the tree broken or touches
anything outside; and each ends with the first subdirectory that it has removed, so that it takes
one call for every directory to remove them all. -/

namespace ModGate.Apr

open FileSystem

def directories (es : List Entry) : ℕ := es.countP fun e => e.2 = .dir

/-- The directories at and below a path. -/
def below (path : Path) (es : List Entry) : ℕ := es.countP fun e => e.2 = .dir ∧ path <+: e.1

section Count

variable {path q : Path} {es : List Entry}

lemma directories_cons (e : Entry) (es : List Entry) :
    directories (e :: es) = directories es + if e.2 = .dir then 1 else 0 := by
  simp [directories, List.countP_cons]

lemma below_cons (path : Path) (e : Entry) (es : List Entry) :
    below path (e :: es) = below path es + if e.2 = .dir ∧ path <+: e.1 then 1 else 0 := by
  simp [below, List.countP_cons]

lemma directories_eq (path : Path) (es : List Entry) :
    directories es = directories (outside path es) + below path es := by
  induction es with
  | nil => rfl
  | cons e es ih =>
    rw [directories_cons, below_cons, ih]
    by_cases hin : path <+: e.1
    · have hout : outside path (e :: es) = outside path es :=
        List.filter_cons_of_neg (by simpa using hin)
      simp only [hout, hin, and_true, Nat.add_assoc]
    · have hout : outside path (e :: es) = e :: outside path es :=
        List.filter_cons_of_pos (by simpa using hin)
      simp only [hout, directories_cons, hin, and_false, if_false]
      omega

lemma below_outside (path : Path) (es : List Entry) : below path (outside path es) = 0 := by
  rw [below, List.countP_eq_zero]
  intro e he hin
  rw [decide_eq_true_eq] at hin
  exact (mem_outside.mp he).2 hin.2

lemma below_pos (h : (path, FileType.dir) ∈ es) : 0 < below path es := by
  rw [below, List.countP_pos_iff]
  exact ⟨_, h, by simp⟩

lemma below_flat (hw : WellFormed es) (hdir : (path, FileType.dir) ∈ es)
    (hflat : ∀ name, (path ++ [name], FileType.dir) ∉ es) : below path es = 1 := by
  have hcount : es.count (path, FileType.dir) = 1 :=
    List.count_eq_one_of_mem hw.distinct.of_map hdir
  rw [← hcount, below, List.count]
  apply List.countP_congr
  rintro ⟨p, t⟩ hmem
  simp only [decide_eq_true_eq, beq_iff_eq, Prod.mk.injEq]
  constructor
  · rintro ⟨rfl, rest, rfl⟩
    cases rest with
    | nil => exact ⟨List.append_nil path, rfl⟩
    | cons x xs =>
      cases xs with
      | nil => exact absurd hmem (hflat x)
      | cons y ys => exact absurd (hw.above (List.cons_ne_nil y ys) hmem) (hflat x)
  · rintro ⟨rfl, rfl⟩
    exact ⟨rfl, List.prefix_refl _⟩

lemma directories_erase (hw : WellFormed es) (hq : (q, FileType.other) ∈ es) :
    directories (erase q es) = directories es := by
  rw [directories, directories, erase, List.countP_filter]
  apply List.countP_congr
  rintro ⟨p, t⟩ hmem
  simp only [decide_eq_true_eq, Bool.and_eq_true, and_iff_left_iff_imp]
  rintro rfl rfl
  exact absurd (hw.unique hmem hq) (by decide)

lemma outside_erase (h : path <+: q) (es : List Entry) :
    outside path (erase q es) = outside path es := by
  rw [outside, outside, erase, List.filter_filter]
  apply List.filter_congr
  intro e _
  by_cases hin : path <+: e.1
  · simp [hin]
  · have hne : e.1 ≠ q := fun heq => hin (heq ▸ h)
    simp [hin, hne]

lemma outside_outside (h : path <+: q) (es : List Entry) :
    outside path (outside q es) = outside path es := by
  rw [outside, outside, outside, List.filter_filter]
  apply List.filter_congr
  intro e _
  by_cases hin : path <+: e.1
  · simp [hin]
  · have hout : ¬ q <+: e.1 := fun hq => hin (h.trans hq)
    simp [hin, hout]

end Count

lemma wellFormed_outside {es : List Entry} (hw : WellFormed es) (path : Path) :
    WellFormed (outside path es) where
  distinct := hw.distinct.sublist (List.filter_sublist.map _)
  rooted := fun e he => hw.rooted e (mem_outside.mp he).1
  closed := by
    intro e he hne
    obtain ⟨hmem, hout⟩ := mem_outside.mp he
    refine mem_outside.mpr ⟨hw.closed e hmem hne, fun hin => hout ?_⟩
    exact hin.trans (List.dropLast_prefix e.1)
  plain := fun e he => hw.plain e (mem_outside.mp he).1

/-! Whatever fails. -/

structure Confined (path : Path) (es es' : List Entry) : Prop where
  wellFormed : WellFormed es'
  sublist : es'.Sublist es
  outside : outside path es' = outside path es

section Confined

variable {env : Environment} {path q : Path} {es : List Entry} {w : World}

lemma Confined.erase (h : Confined path es w.entries) (hin : path <+: q)
    (hw : WellFormed (erase q w.entries)) : Confined path es (FileSystem.erase q w.entries) where
  wellFormed := hw
  sublist := List.filter_sublist.trans h.sublist
  outside := (outside_erase hin _).trans h.outside

lemma fsCall_entries (env : Environment) (answer : ℤ) (effect : List Entry → List Entry)
    (w : World) : (fsCall env answer effect w).entries = w.entries ∨
      answer = aprSuccess ∧ (fsCall env answer effect w).entries = effect w.entries := by
  simp only [fsCall]
  split
  · next hstatus =>
    cases hf : env.failure w.calls with
    | none =>
      rw [hf] at hstatus
      exact Or.inr ⟨hstatus, rfl⟩
    | some status =>
      rw [hf] at hstatus
      exact absurd hstatus (env.nonzero _ _ hf)
  · exact Or.inl rfl

lemma fsCall_id (env : Environment) (answer : ℤ) (w : World) :
    (fsCall env answer id w).entries = w.entries := by
  rcases fsCall_entries env answer id w with h | ⟨-, h⟩
  · exact h
  · exact h

lemma wellFormed_erase_dir (hw : WellFormed es) (hempty : children q es = []) :
    WellFormed (erase q es) where
  distinct := hw.distinct.sublist (List.filter_sublist.map _)
  rooted := fun e he => hw.rooted e (mem_erase.mp he).1
  closed := by
    intro e he hne
    have hmem := (mem_erase.mp he).1
    refine mem_erase.mpr ⟨hw.closed e hmem hne, fun hq => ?_⟩
    obtain ⟨p, t⟩ := e
    have hsplit : p.dropLast ++ [p.getLast (hw.rooted _ hmem)] = p :=
      List.dropLast_append_getLast (hw.rooted _ hmem)
    rw [show p.dropLast = q from hq] at hsplit
    rw [← hsplit, ← mem_children, hempty] at hmem
    cases hmem
  plain := fun e he => hw.plain e (mem_erase.mp he).1

lemma Confined.aprFileRemove (h : Confined path es w.entries) (hin : path <+: q) :
    Confined path es (aprFileRemove env q w).entries := by
  rw [Apr.aprFileRemove]
  rcases fsCall_entries env _ (FileSystem.erase q) w with heq | ⟨hanswer, heq⟩ <;> rw [heq]
  · exact h
  · split at hanswer
    · next hmem => exact h.erase hin (h.wellFormed.erase hmem)
    · cases hanswer

lemma Confined.aprDirRemove (h : Confined path es w.entries) :
    Confined path es (aprDirRemove env path w).entries := by
  rw [Apr.aprDirRemove]
  rcases fsCall_entries env _ (FileSystem.erase path) w with heq | ⟨hanswer, heq⟩ <;> rw [heq]
  · exact h
  · split at hanswer
    · cases hanswer
    · split at hanswer
      · cases hanswer
      · next hempty =>
        have hwell := wellFormed_erase_dir h.wellFormed (not_not.mp hempty)
        exact h.erase (List.prefix_refl path) hwell

lemma Confined.widen (hin : path <+: q) {es' : List Entry} (h : Confined path es w.entries)
    (h' : Confined q w.entries es') : Confined path es es' where
  wellFormed := h'.wellFormed
  sublist := h'.sublist.trans h.sublist
  outside := by
    rw [← outside_outside hin, h'.outside, outside_outside hin, h.outside]

lemma confined_readLoop {r : Path → World → Option (ℤ × World)}
    (hr : ∀ name w rc w', WellFormed w.entries → r (path ++ [name]) w = some (rc, w') →
      Confined (path ++ [name]) w.entries w'.entries)
    {names : List (String × FileType)} (h : Confined path es w.entries) {out : Option ℤ}
    {w' : World} (hloop : readLoop env r path names w = some (out, w')) :
    Confined path es w'.entries := by
  induction names generalizing w with
  | nil =>
    obtain ⟨-, rfl⟩ := Prod.mk.inj (Option.some.inj hloop)
    rw [aprDirRead, fsCall_id]
    exact h
  | cons name names ih =>
    have hread : Confined path es (aprDirRead env false w).entries := by
      rw [aprDirRead, fsCall_id]
      exact h
    have hremove := @Confined.aprFileRemove env path (path ++ [name.1]) es _ hread
      (List.prefix_append _ _)
    simp only [readLoop, env.intact] at hloop
    split_ifs at hloop
    · obtain ⟨-, rfl⟩ := Prod.mk.inj (Option.some.inj hloop)
      exact hread
    · exact ih hread hloop
    · split at hloop
      · cases hloop
      · next rc w₁ hcall =>
        have hinner := hread.widen (List.prefix_append _ _)
          (hr name.1 _ rc w₁ hread.wellFormed hcall)
        split_ifs at hloop
        · obtain ⟨-, rfl⟩ := Prod.mk.inj (Option.some.inj hloop)
          exact hinner
        · exact ih hinner hloop
    · obtain ⟨-, rfl⟩ := Prod.mk.inj (Option.some.inj hloop)
      exact hremove
    · exact ih hremove hloop

lemma confined_closeAndRemove (h : Confined path es w.entries) :
    Confined path es (closeAndRemove env path w).2.entries := by
  have hclose : Confined path es (aprDirClose env w).entries := by
    rw [aprDirClose, fsCall_id]
    exact h
  simp only [closeAndRemove]
  split_ifs
  · exact h
  · exact hclose
  · exact hclose.aprDirRemove
  · exact hclose.aprDirRemove

lemma confined_rmdirLoop (fuel : ℕ) :
    ∀ path w rc w', WellFormed w.entries → rmdirLoop env fuel path w = some (rc, w') →
      Confined (target path) w.entries w'.entries := by
  induction fuel with
  | zero =>
    intro path w rc w' _ h
    cases h
  | succ fuel ih =>
    intro path w rc w' hw h
    have hopen : Confined (target path) w.entries (aprDirOpen env (target path) w).entries := by
      rw [aprDirOpen, fsCall_id]
      exact ⟨hw, List.Sublist.refl _, rfl⟩
    simp only [rmdirLoop] at h
    split_ifs at h with hstatus
    · obtain ⟨-, rfl⟩ := Prod.mk.inj (Option.some.inj h)
      exact hopen
    · have hmem : (target path, FileType.dir) ∈ w.entries := by
        by_contra habsent
        exact hstatus (aprDirOpen_absent habsent)
      have hr : ∀ name w rc w', WellFormed w.entries →
          rmdirLoop env fuel (target path ++ [name]) w = some (rc, w') →
          Confined (target path ++ [name]) w.entries w'.entries := by
        intro name w rc w' hw' hcall
        rw [← target_concat (hw.rooted _ hmem) name]
        exact ih _ w rc w' hw' hcall
      split at h
      · cases h
      · next hloop =>
        obtain ⟨-, rfl⟩ := Prod.mk.inj (Option.some.inj h)
        exact confined_readLoop hr hopen hloop
      · next w₁ hloop =>
        obtain rfl := congrArg Prod.snd (Option.some.inj h)
        exact confined_closeAndRemove (confined_readLoop hr hopen hloop)

end Confined

theorem rmdir_confined {es : List Entry} (hw : WellFormed es) (env : Environment) (path : Path) :
    ∃ rc w, rmdir env path es = some (rc, w) ∧ WellFormed w.entries ∧ w.entries.Sublist es ∧
      outside (target path) w.entries = outside (target path) es := by
  obtain ⟨rc, w, hrmdir⟩ := rmdir_returns env path es
  obtain ⟨hwell, hsub, hout⟩ := confined_rmdirLoop _ path ⟨es, 0, aprSuccess⟩ rc w hw hrmdir
  exact ⟨rc, w, hrmdir, hwell, hsub, hout⟩

lemma fifth_failure_nonzero (n : ℕ) (status : ℤ) :
    (if n = 5 then some 5 else none) = some status → status ≠ aprSuccess := by
  intro h
  split_ifs at h
  cases h
  decide

def brokenEnvironment : Environment :=
  { calmEnvironment with
    failure := fun n => if n = 5 then some 5 else none
    nonzero := fifth_failure_nonzero }

theorem broken_call_confined :
    ∃ rc w, rmdir brokenEnvironment ["d"] flatTree = some (rc, w) ∧
      outside ["d"] w.entries = [(["e"], .other)] := by
  have hw : WellFormed flatTree := ⟨by decide, by decide, by decide, by decide⟩
  obtain ⟨rc, w, hrmdir, -, -, hout⟩ := rmdir_confined hw brokenEnvironment ["d"]
  exact ⟨rc, w, hrmdir, hout.trans (by decide)⟩

/-! When nothing fails. -/

/-- What a call without failures leaves. -/
structure Prunes (path : Path) (es es' : List Entry) : Prop where
  wellFormed : WellFormed es'
  outside : outside path es' = outside path es
  directories : directories es = directories es' + 1

lemma Prunes.erased {path q : Path} {es es' : List Entry} (h : Prunes path (erase q es) es')
    (hw : WellFormed es) (hq : (q, FileType.other) ∈ es) (hin : path <+: q) :
    Prunes path es es' where
  wellFormed := h.wellFormed
  outside := h.outside.trans (outside_erase hin es)
  directories := (directories_erase hw hq).symm.trans h.directories

lemma Prunes.widen {path q : Path} {es es' : List Entry} (h : Prunes q es es')
    (hin : path <+: q) : Prunes path es es' where
  wellFormed := h.wellFormed
  outside := by
    rw [← outside_outside hin, h.outside, outside_outside hin]
  directories := h.directories

lemma prunes_flat {path : Path} {es : List Entry} (hw : WellFormed es)
    (hdir : (path, FileType.dir) ∈ es) (hflat : ∀ name, (path ++ [name], FileType.dir) ∉ es) :
    Prunes path es (outside path es) where
  wellFormed := wellFormed_outside hw path
  outside := outside_outside (List.prefix_refl path) es
  directories := by
    rw [directories_eq path, below_flat hw hdir hflat]

section Calm

variable {env : Environment} {path : Path} {w : World} {names : List (String × FileType)}
  {r : Path → World → Option (ℤ × World)} (hcalm : ∀ n, env.failure n = none)

include hcalm

lemma readLoop_prunes
    (hr : ∀ name w rc w', WellFormed w.entries → (path ++ [name], FileType.dir) ∈ w.entries →
      r (path ++ [name]) w = some (rc, w') →
      rc = aprSuccess ∧ Prunes (path ++ [name]) w.entries w'.entries)
    (hl : Listed path names w.entries) (hsub : ∃ name ∈ names, name.2 = .dir ∧ ¬ Dots name)
    {out : Option ℤ} {w' : World} (h : readLoop env r path names w = some (out, w')) :
    out ≠ none ∧ Prunes path w.entries w'.entries := by
  induction names generalizing w with
  | nil =>
    obtain ⟨name, hname, -⟩ := hsub
    cases hname
  | cons name names ih =>
    obtain ⟨hname, -⟩ := List.forall_mem_cons.mp hl.mem
    by_cases hdots : Dots name
    · have hrest := ((List.exists_mem_cons_iff _ _ _).mp hsub).resolve_left fun hname =>
        hname.2 hdots
      rw [readLoop_dots hcalm hdots] at h
      exact @ih ⟨w.entries, w.calls + 1, aprSuccess⟩ hl.tail hrest h
    · obtain ⟨name, t⟩ := name
      have hentry : (path ++ [name], t) ∈ w.entries := hname.resolve_left hdots
      cases t with
      | dir =>
        have hdone := fun rc w₁ =>
          hr name ⟨w.entries, w.calls + 1, aprSuccess⟩ rc w₁ hl.wellFormed hentry
        rw [readLoop_directory hcalm hdots fun rc w₁ hcall => (hdone rc w₁ hcall).1] at h
        obtain ⟨⟨rc, w₁⟩, hcall, hanswer⟩ := Option.map_eq_some_iff.mp h
        obtain ⟨rfl, rfl⟩ := Prod.mk.inj hanswer
        exact ⟨Option.some_ne_none _, (hdone rc w₁ hcall).2.widen (List.prefix_append _ _)⟩
      | other =>
        have hrest := ((List.exists_mem_cons_iff _ _ _).mp hsub).resolve_left fun hname =>
          FileType.noConfusion hname.1
        rw [readLoop_file hcalm hentry] at h
        obtain ⟨hout, hprunes⟩ :=
          @ih ⟨erase (path ++ [name]) w.entries, w.calls + 2, aprSuccess⟩ hl.erase hrest h
        exact ⟨hout, hprunes.erased hl.wellFormed hentry (List.prefix_append _ _)⟩

lemma rmdirLoop_prunes (fuel : ℕ) :
    ∀ path w rc w', WellFormed w.entries → (target path, FileType.dir) ∈ w.entries →
      rmdirLoop env fuel path w = some (rc, w') → Prunes (target path) w.entries w'.entries := by
  induction fuel with
  | zero =>
    intro path w rc w' _ _ h
    cases h
  | succ fuel ih =>
    intro path w rc w' hw hdir h
    by_cases hsub : ∃ sub, (target path ++ [sub], FileType.dir) ∈ w.entries
    · obtain ⟨sub, hsub⟩ := hsub
      have hne : target path ≠ [] := hw.rooted _ hdir
      have hplain := hw.name_plain hne hsub
      have hread : ∃ name ∈ env.order w.calls (listing (target path) w.entries),
          name.2 = .dir ∧ ¬ Dots name :=
        ⟨(sub, .dir), mem_order hsub w.calls, rfl, fun hdots => hdots.2.elim hplain.1 hplain.2⟩
      have hr : ∀ name w rc w', WellFormed w.entries →
          (target path ++ [name], FileType.dir) ∈ w.entries →
          rmdirLoop env fuel (target path ++ [name]) w = some (rc, w') →
          rc = aprSuccess ∧ Prunes (target path ++ [name]) w.entries w'.entries := by
        intro name w rc w' hw hmem hcall
        rw [← target_concat hne name] at hmem ⊢
        exact ⟨(rmdirLoop_succeeds hcalm fuel _ w rc w' hw hmem hcall).rc,
          ih _ w rc w' hw hmem hcall⟩
      rw [rmdirLoop, aprDirOpen_calm hcalm hdir, if_neg (by simp)] at h
      have hloop := fun out w₁ => @readLoop_prunes env (target path)
        ⟨w.entries, w.calls + 1, aprSuccess⟩ _ (rmdirLoop env fuel) hcalm hr
        (listed_order env hw hdir w.calls) hread out w₁
      split at h
      · cases h
      · next hout =>
        obtain ⟨-, rfl⟩ := Prod.mk.inj (Option.some.inj h)
        exact (hloop _ _ hout).2
      · next hout => exact absurd rfl (hloop _ _ hout).1
    · obtain ⟨w₁, hw₁, -, hentries⟩ :=
        rmdirLoop_flat_calm hcalm hw hdir (not_exists.mp hsub) fuel
      obtain ⟨-, rfl⟩ := Prod.mk.inj (Option.some.inj (hw₁.symm.trans h))
      rw [hentries]
      exact prunes_flat hw hdir (not_exists.mp hsub)

lemma rmdir_calm {es : List Entry} (hw : WellFormed es)
    (hdir : (target path, FileType.dir) ∈ es) :
    ∃ w, rmdir env path es = some (aprSuccess, w) ∧ Prunes (target path) es w.entries ∧
      ((target path, FileType.dir) ∈ w.entries ∨ w.entries = outside (target path) es) := by
  obtain ⟨rc, w, hrmdir⟩ := rmdir_returns env path es
  have hdone := rmdirLoop_succeeds hcalm _ path ⟨es, 0, aprSuccess⟩ rc w hw hdir hrmdir
  have hprunes := rmdirLoop_prunes hcalm _ path ⟨es, 0, aprSuccess⟩ rc w hw hdir hrmdir
  obtain rfl := hdone.rc
  refine ⟨w, hrmdir, hprunes, ?_⟩
  by_cases hsub : ∃ sub, (target path ++ [sub], FileType.dir) ∈ es
  · obtain ⟨sub, hsub⟩ := hsub
    obtain ⟨-, -, hkept⟩ := @rmdirLoop_subdirectory env path ⟨es, 0, aprSuccess⟩ hcalm _
      (rmdirLoop_succeeds hcalm (depth es + 1)) hw hdir sub hsub aprSuccess w hrmdir
    refine Or.inl (hkept _ hdir fun name hname => ?_)
    have hlength : (target path ++ [name]).length ≤ (target path).length := hname.length_le
    rw [List.length_append, List.length_singleton] at hlength
    omega
  · obtain ⟨w₁, hw₁, -, hentries⟩ := @rmdirLoop_flat_calm env path ⟨es, 0, aprSuccess⟩ hcalm hw
      hdir (not_exists.mp hsub) (depth es + 1)
    obtain ⟨-, rfl⟩ := Prod.mk.inj (Option.some.inj (hw₁.symm.trans hrmdir))
    exact Or.inr hentries

end Calm

lemma Prunes.below {path : Path} {es es' : List Entry} (h : Prunes path es es') :
    below path es = below path es' + 1 := by
  have hdirectories := h.directories
  rw [directories_eq path es, directories_eq path es', h.outside] at hdirectories
  omega

/-- The calls one after another, with the codes they return. -/
def rmdirs (path : Path) : List Environment → List Entry → Option (List ℤ × List Entry)
  | [], es => some ([], es)
  | env :: envs, es =>
    match rmdir env path es with
    | none => none
    | some (rc, w) => (rmdirs path envs w.entries).map fun r => (rc :: r.1, r.2)

theorem tree_removed_by_calls {es : List Entry} {path : Path} (hw : WellFormed es)
    (hdir : (target path, FileType.dir) ∈ es) {envs : List Environment}
    (hcalm : ∀ env ∈ envs, ∀ n, env.failure n = none) :
    (envs.length < below (target path) es → ∃ es',
      rmdirs path envs es = some (List.replicate envs.length aprSuccess, es') ∧
        (target path, FileType.dir) ∈ es' ∧
        outside (target path) es' = outside (target path) es) ∧
      (envs.length = below (target path) es →
        rmdirs path envs es = some (List.replicate envs.length aprSuccess,
          outside (target path) es)) := by
  induction envs generalizing es with
  | nil =>
    refine ⟨fun _ => ⟨es, rfl, hdir, rfl⟩, fun hzero => ?_⟩
    exact absurd hzero (Nat.ne_of_lt (below_pos hdir))
  | cons env envs ih =>
    obtain ⟨henv, henvs⟩ := List.forall_mem_cons.mp hcalm
    obtain ⟨w, hrmdir, hprunes, hnext⟩ := rmdir_calm henv hw hdir
    have hbelow := hprunes.below
    simp only [rmdirs, hrmdir, List.length_cons, List.replicate_succ]
    rcases hnext with hkept | hgone
    · obtain ⟨hshort, hexact⟩ := ih hprunes.wellFormed hkept henvs
      constructor
      · intro hlt
        obtain ⟨es', hcalls, hmem, hout⟩ := hshort (by omega)
        refine ⟨es', ?_, hmem, hout.trans hprunes.outside⟩
        rw [hcalls]
        rfl
      · intro heq
        rw [hexact (by omega), hprunes.outside]
        rfl
    · have hzero : below (target path) w.entries = 0 := by
        rw [hgone, below_outside]
      constructor
      · intro hlt
        omega
      · intro heq
        have hnil : envs = [] := List.length_eq_zero_iff.mp (by omega)
        rw [hnil, hgone]
        rfl

def twoDirectories : List Entry :=
  [(["d"], .dir), (["d", "s"], .dir), (["d", "s", "a"], .other), (["e"], .dir)]

theorem two_calls_needed :
    rmdirs ["d"] [calmEnvironment, calmEnvironment] twoDirectories =
      some ([aprSuccess, aprSuccess], [(["e"], .dir)]) := by
  have hw : WellFormed twoDirectories := ⟨by decide, by decide, by decide, by decide⟩
  exact (@tree_removed_by_calls twoDirectories ["d"] hw (by decide)
    [calmEnvironment, calmEnvironment] (fun env henv n => by
      simp only [List.mem_cons, List.not_mem_nil, or_false, or_self] at henv
      rw [henv]
      rfl)).2 (by decide)

end ModGate.Apr
