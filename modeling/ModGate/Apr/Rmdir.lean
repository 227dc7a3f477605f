import ModGate.FileSystem.Tree
import Mathlib.Data.Int.Notation

/-! The recursive directory removal `apr::rmdir`, with file-system calls that may fail at any
time. -/

namespace ModGate.Apr

open FileSystem

def aprSuccess : ℤ := 0

def enoent : ℤ := 2

def enotdir : ℤ := 20

def enotempty : ℤ := 39

/-- Which calls fail, numbered in their order, and how a directory orders its entries. `fullpath` is
the path of an entry as it is read through `strm.str().c_str()`, which points into a string that is
destroyed by then; the memory is taken to hold the text still. -/
structure Environment where
  failure : ℕ → Option ℤ
  nonzero : ∀ n status, failure n = some status → status ≠ aprSuccess
  order : ℕ → List (String × FileType) → List (String × FileType)
  perm : ∀ n names, (order n names).Perm names
  fullpath : Path → String → Path
  intact : ∀ path entry, fullpath path entry = path ++ [entry]

structure World where
  entries : List Entry
  calls : ℕ
  aprStatus : ℤ
deriving DecidableEq

section Calls

variable (env : Environment)

def fsCall (answer : ℤ) (effect : List Entry → List Entry) (w : World) : World :=
  let status := (env.failure w.calls).getD answer
  { entries := if status = aprSuccess then effect w.entries else w.entries
    calls := w.calls + 1
    aprStatus := status }

def aprDirOpen (path : Path) (w : World) : World :=
  fsCall env
    (if (path, .dir) ∈ w.entries then aprSuccess
      else if (path, .other) ∈ w.entries then enotdir else enoent) id w

-- A directory that has been read to its end answers ENOENT.
def aprDirRead (ended : Bool) (w : World) : World :=
  fsCall env (if ended then enoent else aprSuccess) id w

def aprFileRemove (path : Path) (w : World) : World :=
  fsCall env (if (path, .other) ∈ w.entries then aprSuccess else enoent) (erase path) w

def aprDirClose (w : World) : World := fsCall env aprSuccess id w

def aprDirRemove (path : Path) (w : World) : World :=
  fsCall env
    (if (path, .dir) ∉ w.entries then enoent
      else if children path w.entries ≠ [] then enotempty else aprSuccess) (erase path) w

/-- The loop over the entries: the value of a `return` inside of it, or none when it ends. -/
def readLoop (rmdir : Path → World → Option (ℤ × World)) (path : Path) :
    List (String × FileType) → World → Option (Option ℤ × World)
  | [], w => some (none, aprDirRead env true w)
  | (name, filetype) :: names, w =>
    let w := aprDirRead env false w
    if w.aprStatus ≠ aprSuccess then some (none, w)
    else if filetype = .dir ∧ (name = "." ∨ name = "..") then readLoop rmdir path names w
    else if filetype = .dir then
      match rmdir (env.fullpath path name) w with
      | none => none
      | some (rc, w) =>
        -- The comparison with `false` takes the branch on success.
        if rc = 0 then some (some w.aprStatus, w) else readLoop rmdir path names w
    else
      let w := aprFileRemove env (env.fullpath path name) w
      if w.aprStatus ≠ aprSuccess then some (some w.aprStatus, w) else readLoop rmdir path names w

def listing (path : Path) (es : List Entry) : List (String × FileType) :=
  [(".", .dir), ("..", .dir)] ++ children path es

-- The empty path names the current directory.
def target (path : Path) : Path := if path = [""] then ["."] else path

-- What follows the loop, when it ends without a `return`.
def closeAndRemove (path : Path) (w : World) : ℤ × World :=
  if w.aprStatus ≠ enoent then (w.aprStatus, w)
  else
    let w := aprDirClose env w
    if w.aprStatus ≠ aprSuccess then (w.aprStatus, w)
    else
      let w := aprDirRemove env path w
      if w.aprStatus ≠ aprSuccess then (w.aprStatus, w) else (aprSuccess, w)

def rmdirLoop : ℕ → Path → World → Option (ℤ × World)
  | 0, _, _ => none
  | fuel + 1, path, w =>
    let path := target path
    let names := env.order w.calls (listing path w.entries)
    let w := aprDirOpen env path w
    if w.aprStatus ≠ aprSuccess then some (w.aprStatus, w)
    else
      match readLoop env (rmdirLoop fuel) path names w with
      | none => none
      | some (some rc, w) => some (rc, w)
      | some (none, w) => some (closeAndRemove env path w)

def depth (es : List Entry) : ℕ := (es.map fun e => e.1.length).foldr max 0

def rmdir (path : Path) (es : List Entry) : Option (ℤ × World) :=
  rmdirLoop env (depth es + 2) path ⟨es, 0, aprSuccess⟩

end Calls

/-- Without a failing call the tree is removed and nothing else; in any case a successful return
means that the path is gone. -/
structure RemovesTree (es : List Entry) (path : Path) : Prop where
  removed : ∀ env : Environment, (∀ n, env.failure n = none) →
    ∃ w, rmdir env path es = some (aprSuccess, w) ∧ w.entries = outside (target path) es
  gone : ∀ env w, rmdir env path es = some (aprSuccess, w) →
    ∀ t, (target path, t) ∉ w.entries

/-! Every call returns: each level of the recursion makes the path longer. -/

def Bounded (n : ℕ) (w : World) : Prop := ∀ e ∈ w.entries, e.1.length ≤ n

section Returning

variable {env : Environment} {n : ℕ} {path : Path} {w : World}

lemma Bounded.fsCall (h : Bounded n w) (answer : ℤ) {effect : List Entry → List Entry}
    (heffect : ∀ es, effect es ⊆ es) : Bounded n (fsCall env answer effect w) := by
  intro e he
  simp only [Apr.fsCall] at he
  split at he
  · exact h e (heffect w.entries he)
  · exact h e he

lemma Bounded.id (h : Bounded n w) (answer : ℤ) : Bounded n (Apr.fsCall env answer id w) :=
  h.fsCall answer fun _ => List.Subset.refl _

lemma Bounded.erase (h : Bounded n w) (answer : ℤ) (q : Path) :
    Bounded n (Apr.fsCall env answer (erase q) w) :=
  h.fsCall answer fun _ => List.filter_subset_self _

lemma readLoop_returns {r : Path → World → Option (ℤ × World)}
    (hr : ∀ name w, Bounded n w → ∃ rc w', r (path ++ [name]) w = some (rc, w') ∧ Bounded n w')
    (names : List (String × FileType)) (h : Bounded n w) :
    ∃ out w', readLoop env r path names w = some (out, w') ∧ Bounded n w' := by
  induction names generalizing w with
  | nil => exact ⟨_, _, rfl, h.id _⟩
  | cons name names ih =>
    have hread : Bounded n (aprDirRead env false w) := h.id _
    simp only [readLoop, env.intact]
    split_ifs
    · exact ⟨_, _, rfl, hread⟩
    · exact ih hread
    · obtain ⟨rc, w', hrc, hw'⟩ := hr name.1 _ hread
      simp only [hrc]
      split_ifs
      · exact ⟨_, _, rfl, hw'⟩
      · exact ih hw'
    · exact ⟨_, _, rfl, hread.erase _ _⟩
    · exact ih (hread.erase _ _)

lemma Bounded.closeAndRemove (h : Bounded n w) : Bounded n (closeAndRemove env path w).2 := by
  have hclose : Bounded n (aprDirClose env w) := h.id _
  have hremove : Bounded n (aprDirRemove env path (aprDirClose env w)) := hclose.erase _ _
  simp only [Apr.closeAndRemove]
  split_ifs
  · exact h
  · exact hclose
  · exact hremove
  · exact hremove

lemma target_concat (h : path ≠ []) (name : String) : target (path ++ [name]) = path ++ [name] := by
  apply if_neg
  intro heq
  exact h (List.append_inj' (show path ++ [name] = [] ++ [""] from heq) rfl).1

lemma length_target (path : Path) : (target path).length = path.length := by
  rw [target]
  split
  · next h => rw [h]; rfl
  · rfl

lemma fsCall_refused {answer : ℤ} (h : answer ≠ aprSuccess) (effect : List Entry → List Entry)
    (w : World) : (fsCall env answer effect w).aprStatus ≠ aprSuccess := by
  simp only [fsCall]
  cases hf : env.failure w.calls with
  | some status => exact env.nonzero _ _ hf
  | none => exact h

lemma aprDirOpen_absent (h : (path, FileType.dir) ∉ w.entries) :
    (aprDirOpen env path w).aprStatus ≠ aprSuccess := by
  rw [aprDirOpen, if_neg h]
  apply fsCall_refused
  split <;> decide

lemma rmdirLoop_returns {fuel : ℕ} (h : Bounded n w) (hfuel : n + 1 < path.length + fuel)
    (hpos : 0 < fuel) : ∃ rc w', rmdirLoop env fuel path w = some (rc, w') ∧ Bounded n w' := by
  induction fuel generalizing path w with
  | zero => cases hpos
  | succ fuel ih =>
    have hopen : Bounded n (aprDirOpen env (target path) w) := h.id _
    simp only [rmdirLoop]
    split_ifs with hstatus
    · exact ⟨_, _, rfl, hopen⟩
    · have hmem : (target path, FileType.dir) ∈ w.entries := by
        by_contra habsent
        exact hstatus (aprDirOpen_absent habsent)
      have hlength : path.length ≤ n := length_target path ▸ h _ hmem
      have hr : ∀ name w, Bounded n w →
          ∃ rc w', rmdirLoop env fuel (target path ++ [name]) w = some (rc, w') ∧
            Bounded n w' := by
        intro name w hw
        apply ih hw
        · rw [List.length_append, length_target, List.length_singleton]
          omega
        · omega
      obtain ⟨out, w', hout, hw'⟩ := @readLoop_returns env n (target path) _ _ hr _ hopen
      rw [hout]
      cases out with
      | some rc => exact ⟨rc, w', rfl, hw'⟩
      | none => exact ⟨_, _, rfl, hw'.closeAndRemove⟩

lemma le_depth {es : List Entry} {e : Entry} (h : e ∈ es) : e.1.length ≤ depth es := by
  induction es with
  | nil => cases h
  | cons d es ih =>
    rcases List.mem_cons.mp h with rfl | h
    · exact Nat.le_max_left _ _
    · exact Nat.le_trans (ih h) (Nat.le_max_right _ _)

lemma rmdir_returns (env : Environment) (path : Path) (es : List Entry) :
    ∃ rc w, rmdir env path es = some (rc, w) := by
  obtain ⟨rc, w, h, -⟩ := @rmdirLoop_returns env (depth es) path ⟨es, 0, aprSuccess⟩ (depth es + 2)
    (fun _ he => le_depth he) (by omega) (by omega)
  exact ⟨rc, w, h⟩

end Returning

/-! A directory without subdirectories. -/

def Dots (name : String × FileType) : Prop := name.2 = .dir ∧ (name.1 = "." ∨ name.1 = "..")

lemma dots_of_mem {name : String × FileType}
    (h : name ∈ [(".", FileType.dir), ("..", FileType.dir)]) : Dots name := by
  rcases List.mem_pair.mp h with rfl | rfl
  · exact ⟨rfl, Or.inl rfl⟩
  · exact ⟨rfl, Or.inr rfl⟩

section Flat

variable {env : Environment} {path : Path} {w : World} {names : List (String × FileType)}
  {r : Path → World → Option (ℤ × World)}

lemma readLoop_flat (hflat : ∀ name ∈ names, name.2 = .dir → Dots name) {out : Option ℤ}
    {w' : World} (h : readLoop env r path names w = some (out, w')) :
    out.getD w'.aprStatus ≠ aprSuccess := by
  induction names generalizing w with
  | nil =>
    obtain ⟨rfl, rfl⟩ : none = out ∧ aprDirRead env true w = w' := by simpa [readLoop] using h
    exact fsCall_refused (by decide) id w
  | cons name names ih =>
    obtain ⟨hname, hnames⟩ := List.forall_mem_cons.mp hflat
    simp only [readLoop, env.intact] at h
    split_ifs at h with hread hdots hdir hremove
    · obtain ⟨rfl, rfl⟩ : none = out ∧ aprDirRead env false w = w' := by simpa using h
      exact hread
    · exact ih hnames h
    · exact absurd (hname hdir) hdots
    · obtain ⟨rfl, rfl⟩ := Prod.mk.inj (Option.some.inj h)
      exact hremove
    · exact ih hnames h

lemma closeAndRemove_gone (hstatus : w.aprStatus ≠ aprSuccess) {w' : World}
    (h : closeAndRemove env path w = (aprSuccess, w')) (t : FileType) : (path, t) ∉ w'.entries := by
  simp only [closeAndRemove] at h
  split_ifs at h with hend hclose hremove
  · exact absurd (congrArg Prod.fst h) hstatus
  · exact absurd (congrArg Prod.fst h) hclose
  · exact absurd (congrArg Prod.fst h) hremove
  · obtain rfl := congrArg Prod.snd h
    have hdone : (aprDirRemove env path (aprDirClose env w)).aprStatus = aprSuccess :=
      not_not.mp hremove
    simp only [aprDirRemove, fsCall] at hdone ⊢
    rw [if_pos hdone]
    exact fun hmem => (mem_erase.mp hmem).2 rfl

lemma flat_order (hflat : ∀ name, (path ++ [name], FileType.dir) ∉ w.entries) (n : ℕ) :
    ∀ name ∈ env.order n (listing path w.entries), name.2 = .dir → Dots name := by
  rintro ⟨name, t⟩ hmem rfl
  have hlisted := (env.perm n _).subset hmem
  rcases List.mem_append.mp hlisted with hdots | hchild
  · exact dots_of_mem hdots
  · exact absurd (mem_children.mp hchild) (hflat name)

lemma rmdirLoop_flat_gone {fuel : ℕ}
    (hflat : ∀ name, (target path ++ [name], FileType.dir) ∉ w.entries) {w' : World}
    (h : rmdirLoop env fuel path w = some (aprSuccess, w')) (t : FileType) :
    (target path, t) ∉ w'.entries := by
  cases fuel with
  | zero => cases h
  | succ fuel =>
    simp only [rmdirLoop] at h
    split_ifs at h with hopen
    · exact absurd (congrArg Prod.fst (Option.some.inj h)) hopen
    · split at h
      · cases h
      · next rc _ hloop =>
        have hrc := readLoop_flat (flat_order hflat w.calls) hloop
        exact absurd (congrArg Prod.fst (Option.some.inj h)) hrc
      · next w₁ hloop =>
        exact closeAndRemove_gone (readLoop_flat (flat_order hflat w.calls) hloop)
          (Option.some.inj h) t

end Flat

/-! The entries that a loop has still to read, and what it removes of them. -/

section Listing

variable {env : Environment} {path : Path} {w : World} {names : List (String × FileType)}

structure Listed (path : Path) (names : List (String × FileType)) (es : List Entry) : Prop where
  wellFormed : WellFormed es
  distinct : (names.map Prod.fst).Nodup
  mem : ∀ name ∈ names, Dots name ∨ (path ++ [name.1], name.2) ∈ es

lemma Listed.tail {name : String × FileType} {es : List Entry}
    (h : Listed path (name :: names) es) : Listed path names es where
  wellFormed := h.wellFormed
  distinct := (List.nodup_cons.mp h.distinct).2
  mem := (List.forall_mem_cons.mp h.mem).2

lemma Listed.file_mem {name : String} {es : List Entry}
    (h : Listed path ((name, .other) :: names) es) : (path ++ [name], FileType.other) ∈ es := by
  rcases (List.forall_mem_cons.mp h.mem).1 with hdots | hmem
  · cases hdots.1
  · exact hmem

lemma Listed.erase {name : String} {es : List Entry}
    (h : Listed path ((name, .other) :: names) es) :
    Listed path names (erase (path ++ [name]) es) where
  wellFormed := h.wellFormed.erase h.file_mem
  distinct := (List.nodup_cons.mp h.distinct).2
  mem := by
    intro other hother
    refine ((List.forall_mem_cons.mp h.mem).2 other hother).imp_right fun hmem => ?_
    refine mem_erase.mpr ⟨hmem, fun heq => (List.nodup_cons.mp h.distinct).1 ?_⟩
    have hname : other.1 = name := by
      simpa using heq
    exact List.mem_map.mpr ⟨other, hother, hname⟩

lemma listed_order (env : Environment) (hw : WellFormed w.entries)
    (hdir : (path, FileType.dir) ∈ w.entries) (n : ℕ) :
    Listed path (env.order n (listing path w.entries)) w.entries where
  wellFormed := hw
  distinct := by
    rw [((env.perm n _).map Prod.fst).nodup_iff]
    have hplain : ∀ name ∈ (children path w.entries).map Prod.fst, name ≠ "." ∧ name ≠ ".." := by
      intro name hname
      obtain ⟨⟨name, t⟩, hmem, rfl⟩ := List.mem_map.mp hname
      exact hw.name_plain (hw.rooted _ hdir) (mem_children.mp hmem)
    change ("." :: ".." :: (children path w.entries).map Prod.fst).Nodup
    refine List.nodup_cons.mpr ⟨?_, List.nodup_cons.mpr ⟨?_, hw.nodup_children path⟩⟩
    · intro hmem
      rcases List.mem_cons.mp hmem with heq | hmem
      · exact absurd heq (by decide)
      · exact (hplain _ hmem).1 rfl
    · intro hmem
      exact (hplain _ hmem).2 rfl
  mem := by
    rintro ⟨name, t⟩ hmem
    rcases List.mem_append.mp ((env.perm n _).subset hmem) with hdots | hchild
    · exact Or.inl (dots_of_mem hdots)
    · exact Or.inr (mem_children.mp hchild)

lemma mem_order {name : String} {t : FileType} (h : (path ++ [name], t) ∈ w.entries) (n : ℕ) :
    (name, t) ∈ env.order n (listing path w.entries) :=
  (env.perm n _).symm.subset (List.mem_append_right _ (mem_children.mpr h))

def without (path : Path) (names : List (String × FileType)) (es : List Entry) : List Entry :=
  es.filter fun e => ∀ name ∈ names, name.2 = .other → e.1 ≠ path ++ [name.1]

lemma mem_without {es : List Entry} {e : Entry} : e ∈ without path names es ↔
    e ∈ es ∧ ∀ name ∈ names, name.2 = .other → e.1 ≠ path ++ [name.1] := by
  rw [without, List.mem_filter, decide_eq_true_eq]

lemma without_dir (path : Path) (name : String) (es : List Entry) :
    without path ((name, .dir) :: names) es = without path names es := by
  apply List.filter_congr
  intro e _
  rw [decide_eq_decide, List.forall_mem_cons]
  simp

lemma without_other (path : Path) (name : String) (es : List Entry) :
    without path ((name, .other) :: names) es = without path names (erase (path ++ [name]) es) := by
  rw [without, without, erase, List.filter_filter]
  apply List.filter_congr
  intro e _
  rw [← Bool.decide_and, decide_eq_decide, List.forall_mem_cons, and_comm]
  simp

lemma children_without {es : List Entry}
    (hflat : ∀ name, (path ++ [name], FileType.dir) ∉ es)
    (hnames : ∀ name, (path ++ [name], FileType.other) ∈ es → (name, FileType.other) ∈ names) :
    children path (without path names es) = [] := by
  apply List.eq_nil_iff_forall_not_mem.mpr
  rintro ⟨name, t⟩ hmem
  obtain ⟨hes, hkept⟩ := mem_without.mp (mem_children.mp hmem)
  cases t with
  | dir => exact hflat name hes
  | other => exact hkept (name, .other) (hnames name hes) rfl rfl

lemma erase_without {es : List Entry} (hw : WellFormed es)
    (hflat : ∀ name, (path ++ [name], FileType.dir) ∉ es)
    (hnames : ∀ name, (path ++ [name], FileType.other) ∈ es → (name, FileType.other) ∈ names) :
    erase path (without path names es) = outside path es := by
  rw [erase, without, outside, List.filter_filter]
  apply List.filter_congr
  rintro ⟨q, t⟩ hq
  rw [← Bool.decide_and, decide_eq_decide]
  constructor
  · rintro ⟨hne, hkept⟩ ⟨below, rfl⟩
    cases below with
    | nil => exact hne (List.append_nil path)
    | cons name rest =>
      cases rest with
      | cons next rest => exact hflat name (hw.above (List.cons_ne_nil next rest) hq)
      | nil =>
        cases t with
        | dir => exact hflat name hq
        | other => exact hkept (name, .other) (hnames name hq) rfl rfl
  · intro hout
    refine ⟨?_, ?_⟩
    · rintro rfl
      exact hout (List.prefix_refl q)
    · rintro name _ _ rfl
      exact hout (List.prefix_append path [name.1])

end Listing

/-! Runs in which no call is made to fail. -/

structure Succeeds (path : Path) (w : World) (rc : ℤ) (w' : World) : Prop where
  rc : rc = aprSuccess
  status : w'.aprStatus = aprSuccess
  kept : ∀ e ∈ w.entries, ¬ path <+: e.1 → e ∈ w'.entries

section Calm

variable {env : Environment} {path : Path} {w : World} {names : List (String × FileType)}
  {r : Path → World → Option (ℤ × World)} (hcalm : ∀ n, env.failure n = none)

include hcalm

lemma fsCall_calm (answer : ℤ) (effect : List Entry → List Entry) (w : World) :
    fsCall env answer effect w =
      ⟨if answer = aprSuccess then effect w.entries else w.entries, w.calls + 1, answer⟩ := by
  simp [fsCall, hcalm]

lemma aprDirOpen_calm (h : (path, FileType.dir) ∈ w.entries) :
    aprDirOpen env path w = ⟨w.entries, w.calls + 1, aprSuccess⟩ := by
  rw [aprDirOpen, fsCall_calm hcalm, if_pos h, if_pos rfl]
  rfl

lemma aprDirRead_calm (ended : Bool) (w : World) :
    aprDirRead env ended w =
      ⟨w.entries, w.calls + 1, if ended then enoent else aprSuccess⟩ := by
  rw [aprDirRead, fsCall_calm hcalm, id, ite_self]

lemma aprFileRemove_calm (h : (path, FileType.other) ∈ w.entries) :
    aprFileRemove env path w = ⟨erase path w.entries, w.calls + 1, aprSuccess⟩ := by
  rw [aprFileRemove, fsCall_calm hcalm, if_pos h, if_pos rfl]

lemma closeAndRemove_calm (hend : w.aprStatus = enoent)
    (hdir : (path, FileType.dir) ∈ w.entries) (hempty : children path w.entries = []) :
    closeAndRemove env path w =
      (aprSuccess, ⟨erase path w.entries, w.calls + 2, aprSuccess⟩) := by
  have hclose : aprDirClose env w = ⟨w.entries, w.calls + 1, aprSuccess⟩ := by
    rw [aprDirClose, fsCall_calm hcalm, if_pos rfl]
    rfl
  have hremove : aprDirRemove env path ⟨w.entries, w.calls + 1, aprSuccess⟩ =
      ⟨erase path w.entries, w.calls + 2, aprSuccess⟩ := by
    rw [aprDirRemove, fsCall_calm hcalm]
    simp only [hdir, hempty, not_true_eq_false, ne_eq, if_false, if_true]
  simp only [closeAndRemove, hend, hclose, hremove, ne_eq, not_true_eq_false, if_false]

lemma readLoop_dots {name : String × FileType} (h : Dots name) :
    readLoop env r path (name :: names) w =
      readLoop env r path names ⟨w.entries, w.calls + 1, aprSuccess⟩ := by
  obtain ⟨name, t⟩ := name
  rw [readLoop, env.intact, aprDirRead_calm hcalm]
  exact (if_neg (by simp)).trans (if_pos h)

lemma readLoop_file {name : String} (h : (path ++ [name], FileType.other) ∈ w.entries) :
    readLoop env r path ((name, .other) :: names) w =
      readLoop env r path names ⟨erase (path ++ [name]) w.entries, w.calls + 2, aprSuccess⟩ := by
  have hremove := @aprFileRemove_calm env (path ++ [name]) ⟨w.entries, w.calls + 1, aprSuccess⟩
    hcalm h
  rw [readLoop, env.intact, aprDirRead_calm hcalm]
  simp [hremove]

lemma readLoop_directory {name : String} (hdots : ¬ Dots (name, .dir))
    (hrc : ∀ rc w', r (path ++ [name]) ⟨w.entries, w.calls + 1, aprSuccess⟩ = some (rc, w') →
      rc = aprSuccess) :
    readLoop env r path ((name, .dir) :: names) w =
      (r (path ++ [name]) ⟨w.entries, w.calls + 1, aprSuccess⟩).map
        fun answer => (some answer.2.aprStatus, answer.2) := by
  have hnot : ¬ (FileType.dir = .dir ∧ (name = "." ∨ name = "..")) := hdots
  rw [readLoop, env.intact, aprDirRead_calm hcalm, if_neg Bool.false_ne_true]
  refine (if_neg (not_not.mpr rfl)).trans ((if_neg hnot).trans ((if_pos rfl).trans ?_))
  cases hcall : r (path ++ [name]) ⟨w.entries, w.calls + 1, aprSuccess⟩ with
  | none => rfl
  | some answer => exact if_pos (hrc answer.1 answer.2 hcall)

lemma readLoop_flat_calm (hflat : ∀ name ∈ names, name.2 = .dir → Dots name)
    (hl : Listed path names w.entries) :
    ∃ w', readLoop env r path names w = some (none, w') ∧ w'.aprStatus = enoent ∧
      w'.entries = without path names w.entries := by
  induction names generalizing w with
  | nil =>
    refine ⟨_, rfl, ?_, ?_⟩
    · rw [aprDirRead_calm hcalm]
      rfl
    · simp [aprDirRead_calm hcalm, without]
  | cons name names ih =>
    obtain ⟨hname, hnames⟩ := List.forall_mem_cons.mp hflat
    obtain ⟨name, t⟩ := name
    cases t with
    | dir =>
      rw [readLoop_dots hcalm (hname rfl)]
      obtain ⟨w', hw', hstatus, hentries⟩ := @ih ⟨w.entries, w.calls + 1, aprSuccess⟩ hnames hl.tail
      exact ⟨w', hw', hstatus, hentries.trans (without_dir path name w.entries).symm⟩
    | other =>
      rw [readLoop_file hcalm hl.file_mem]
      obtain ⟨w', hw', hstatus, hentries⟩ :=
        @ih ⟨erase (path ++ [name]) w.entries, w.calls + 2, aprSuccess⟩ hnames hl.erase
      exact ⟨w', hw', hstatus, hentries.trans (without_other path name w.entries).symm⟩

lemma rmdirLoop_flat_calm (hw : WellFormed w.entries)
    (hdir : (target path, FileType.dir) ∈ w.entries)
    (hflat : ∀ name, (target path ++ [name], FileType.dir) ∉ w.entries) (fuel : ℕ) :
    ∃ w', rmdirLoop env (fuel + 1) path w = some (aprSuccess, w') ∧ w'.aprStatus = aprSuccess ∧
      w'.entries = outside (target path) w.entries := by
  obtain ⟨w₁, hloop, hend, hentries⟩ := @readLoop_flat_calm env (target path)
    ⟨w.entries, w.calls + 1, aprSuccess⟩ _ (rmdirLoop env fuel) hcalm
    (flat_order hflat w.calls) (listed_order env hw hdir w.calls)
  have hfiles : ∀ name, (target path ++ [name], FileType.other) ∈ w.entries →
      (name, FileType.other) ∈ env.order w.calls (listing (target path) w.entries) :=
    fun name hname => mem_order hname w.calls
  have hdir₁ : (target path, FileType.dir) ∈ w₁.entries := by
    rw [hentries]
    exact mem_without.mpr ⟨hdir, fun name _ _ h => by simpa using congrArg List.length h⟩
  have hempty : children (target path) w₁.entries = [] := by
    rw [hentries]
    exact children_without hflat hfiles
  refine ⟨⟨outside (target path) w.entries, w₁.calls + 2, aprSuccess⟩, ?_, rfl, rfl⟩
  rw [← erase_without hw hflat hfiles, rmdirLoop, aprDirOpen_calm hcalm hdir]
  simp [hloop, closeAndRemove_calm hcalm hend hdir₁ hempty, hentries]

-- The first subdirectory that is read ends the loop.
lemma readLoop_subdirectory
    (hr : ∀ name w rc w', WellFormed w.entries → (path ++ [name], FileType.dir) ∈ w.entries →
      r (path ++ [name]) w = some (rc, w') → Succeeds (path ++ [name]) w rc w')
    (hl : Listed path names w.entries) (hsub : ∃ name ∈ names, name.2 = .dir ∧ ¬ Dots name)
    {out : Option ℤ} {w' : World} (h : readLoop env r path names w = some (out, w')) :
    out = some aprSuccess ∧ w'.aprStatus = aprSuccess ∧
      ∀ e ∈ w.entries, (∀ name, ¬ path ++ [name] <+: e.1) → e ∈ w'.entries := by
  induction names generalizing w with
  | nil =>
    obtain ⟨name, hname, -⟩ := hsub
    cases hname
  | cons name names ih =>
    obtain ⟨hname, -⟩ := List.forall_mem_cons.mp hl.mem
    by_cases hdots : Dots name
    · have hrest := ((List.exists_mem_cons_iff _ _ _).mp hsub).resolve_left fun hname =>
        hname.2 hdots
      rw [readLoop_dots hcalm hdots] at h
      exact @ih ⟨w.entries, w.calls + 1, aprSuccess⟩ hl.tail hrest h
    · obtain ⟨name, t⟩ := name
      have hentry : (path ++ [name], t) ∈ w.entries := hname.resolve_left hdots
      cases t with
      | dir =>
        have hdone := fun rc w₁ =>
          hr name ⟨w.entries, w.calls + 1, aprSuccess⟩ rc w₁ hl.wellFormed hentry
        rw [readLoop_directory hcalm hdots fun rc w₁ hcall => (hdone rc w₁ hcall).rc] at h
        obtain ⟨⟨rc, w₁⟩, hcall, hanswer⟩ := Option.map_eq_some_iff.mp h
        obtain ⟨rfl, rfl⟩ := Prod.mk.inj hanswer
        have hdone := hdone rc w₁ hcall
        refine ⟨congrArg some hdone.status, hdone.status, fun e he hkeep => ?_⟩
        exact hdone.kept e he (hkeep name)
      | other =>
        have hrest := ((List.exists_mem_cons_iff _ _ _).mp hsub).resolve_left fun hname =>
          FileType.noConfusion hname.1
        rw [readLoop_file hcalm hentry] at h
        obtain ⟨hout, hstatus, hkept⟩ :=
          @ih ⟨erase (path ++ [name]) w.entries, w.calls + 2, aprSuccess⟩ hl.erase hrest h
        refine ⟨hout, hstatus, fun e he hkeep => hkept e (mem_erase.mpr ⟨he, ?_⟩) hkeep⟩
        intro heq
        exact hkeep name (heq ▸ List.prefix_refl _)

lemma rmdirLoop_subdirectory {fuel : ℕ}
    (ih : ∀ path w rc w', WellFormed w.entries → (target path, FileType.dir) ∈ w.entries →
      rmdirLoop env fuel path w = some (rc, w') → Succeeds (target path) w rc w')
    (hw : WellFormed w.entries) (hdir : (target path, FileType.dir) ∈ w.entries) {sub : String}
    (hsub : (target path ++ [sub], FileType.dir) ∈ w.entries) {rc : ℤ} {w' : World}
    (h : rmdirLoop env (fuel + 1) path w = some (rc, w')) :
    rc = aprSuccess ∧ w'.aprStatus = aprSuccess ∧
      ∀ e ∈ w.entries, (∀ name, ¬ target path ++ [name] <+: e.1) → e ∈ w'.entries := by
  have hne : target path ≠ [] := hw.rooted _ hdir
  have hr : ∀ name w rc w', WellFormed w.entries →
      (target path ++ [name], FileType.dir) ∈ w.entries →
      rmdirLoop env fuel (target path ++ [name]) w = some (rc, w') →
      Succeeds (target path ++ [name]) w rc w' := by
    intro name w rc w' hw hmem hcall
    rw [← target_concat hne name] at hmem ⊢
    exact ih (target path ++ [name]) w rc w' hw hmem hcall
  have hplain := hw.name_plain hne hsub
  have hread : ∃ name ∈ env.order w.calls (listing (target path) w.entries),
      name.2 = .dir ∧ ¬ Dots name :=
    ⟨(sub, .dir), mem_order hsub w.calls, rfl, fun hdots => hdots.2.elim hplain.1 hplain.2⟩
  have hloop := fun out w₁ => @readLoop_subdirectory env (target path)
    ⟨w.entries, w.calls + 1, aprSuccess⟩ _ (rmdirLoop env fuel) hcalm hr
    (listed_order env hw hdir w.calls) hread out w₁
  rw [rmdirLoop, aprDirOpen_calm hcalm hdir, if_neg (by simp)] at h
  split at h
  · cases h
  · next rc₁ w₁ hout =>
    obtain ⟨hrc, hrest⟩ := hloop _ _ hout
    obtain ⟨rfl, rfl⟩ := Prod.mk.inj (Option.some.inj h)
    exact ⟨Option.some.inj hrc, hrest⟩
  · next w₁ hout => cases (hloop _ _ hout).1

lemma rmdirLoop_succeeds (fuel : ℕ) :
    ∀ path w rc w', WellFormed w.entries → (target path, FileType.dir) ∈ w.entries →
      rmdirLoop env fuel path w = some (rc, w') → Succeeds (target path) w rc w' := by
  induction fuel with
  | zero =>
    intro path w rc w' _ _ h
    cases h
  | succ fuel ih =>
    intro path w rc w' hw hdir h
    by_cases hsub : ∃ sub, (target path ++ [sub], FileType.dir) ∈ w.entries
    · obtain ⟨sub, hsub⟩ := hsub
      obtain ⟨hrc, hstatus, hkept⟩ := rmdirLoop_subdirectory hcalm ih hw hdir hsub h
      refine ⟨hrc, hstatus, fun e he hout => hkept e he fun name hname => hout ?_⟩
      exact (List.prefix_append _ _).trans hname
    · obtain ⟨w₁, hw₁, hstatus, hentries⟩ :=
        rmdirLoop_flat_calm hcalm hw hdir (not_exists.mp hsub) fuel
      obtain ⟨rfl, rfl⟩ := Prod.mk.inj (Option.some.inj (hw₁.symm.trans h))
      refine ⟨rfl, hstatus, fun e he hout => ?_⟩
      rw [hentries]
      exact mem_outside.mpr ⟨he, hout⟩

end Calm

def calmEnvironment : Environment where
  failure := fun _ => none
  nonzero := by simp
  order := fun _ names => names
  perm := fun _ names => List.Perm.refl names
  fullpath := fun path entry => path ++ [entry]
  intact := fun _ _ => rfl

lemma not_removed_of_subdirectory {es : List Entry} {path : Path} (hw : WellFormed es)
    (hdir : (target path, FileType.dir) ∈ es) {sub : String}
    (hsub : (target path ++ [sub], FileType.dir) ∈ es) {rc : ℤ} {w : World}
    (h : rmdir calmEnvironment path es = some (rc, w)) :
    rc = aprSuccess ∧ (target path, FileType.dir) ∈ w.entries := by
  have hcalm : ∀ n, calmEnvironment.failure n = none := fun _ => rfl
  obtain ⟨hrc, -, hkept⟩ := @rmdirLoop_subdirectory calmEnvironment path ⟨es, 0, aprSuccess⟩ hcalm _
    (rmdirLoop_succeeds hcalm (depth es + 1)) hw hdir sub hsub rc w h
  refine ⟨hrc, hkept _ hdir fun name hname => ?_⟩
  have hlength : (target path ++ [name]).length ≤ (target path).length := hname.length_le
  rw [List.length_append, List.length_singleton] at hlength
  omega

theorem rmdir_removes_iff (es : List Entry) (path : Path) (hw : WellFormed es)
    (hdir : (target path, FileType.dir) ∈ es) :
    (∀ env, ∃ rc w, rmdir env path es = some (rc, w)) ∧
      (RemovesTree es path ↔ ∀ name, (target path ++ [name], FileType.dir) ∉ es) := by
  refine ⟨fun env => rmdir_returns env path es, ?_⟩
  constructor
  · intro hremoves sub hsub
    obtain ⟨w, hrmdir, hentries⟩ := hremoves.removed calmEnvironment fun _ => rfl
    have hkept := (not_removed_of_subdirectory hw hdir hsub hrmdir).2
    rw [hentries] at hkept
    exact (mem_outside.mp hkept).2 (List.prefix_refl _)
  · intro hflat
    refine ⟨fun env hcalm => ?_, fun env w hrmdir t => rmdirLoop_flat_gone hflat hrmdir t⟩
    obtain ⟨w, hrmdir, -, hentries⟩ :=
      @rmdirLoop_flat_calm env path ⟨es, 0, aprSuccess⟩ hcalm hw hdir hflat (depth es + 1)
    exact ⟨w, hrmdir, hentries⟩

def flatTree : List Entry :=
  [(["d"], .dir), (["e"], .other), (["d", "a"], .other), (["d", "b"], .other)]

theorem flatTree_removed : ∃ w, rmdir calmEnvironment ["d"] flatTree = some (aprSuccess, w) ∧
    w.entries = [(["e"], .other)] := by
  have hw : WellFormed flatTree := ⟨by decide, by decide, by decide, by decide⟩
  have hflat : ∀ name, (target ["d"] ++ [name], FileType.dir) ∉ flatTree := by
    intro name
    simp [target, flatTree]
  obtain ⟨w, hrmdir, hentries⟩ :=
    ((rmdir_removes_iff flatTree ["d"] hw (by decide)).2.mpr hflat).removed calmEnvironment
      fun _ => rfl
  exact ⟨w, hrmdir, hentries.trans (by decide)⟩

def nestedTree : List Entry :=
  [(["d"], .dir), (["d", "s"], .dir), (["d", "s", "a"], .other), (["d", "b"], .other)]

theorem subdirectory_ends_rmdir :
    (rmdir calmEnvironment ["d"] nestedTree).map (fun r => (r.1, r.2.entries)) =
        some (aprSuccess, [(["d"], .dir), (["d", "b"], .other)]) ∧
      ¬ RemovesTree nestedTree ["d"] := by
  have hrmdir : (rmdir calmEnvironment ["d"] nestedTree).map (fun r => (r.1, r.2.entries)) =
      some (aprSuccess, [(["d"], .dir), (["d", "b"], .other)]) := by decide
  refine ⟨hrmdir, fun hremoves => ?_⟩
  obtain ⟨⟨rc, w⟩, hreturn, heq⟩ := Option.map_eq_some_iff.mp hrmdir
  obtain ⟨rfl, hentries⟩ := Prod.mk.inj heq
  refine hremoves.gone calmEnvironment w hreturn .dir ?_
  rw [show w.entries = _ from hentries]
  decide

end ModGate.Apr
