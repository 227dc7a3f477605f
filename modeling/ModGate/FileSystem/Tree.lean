import Mathlib.Data.List.Induction
import Mathlib.Data.List.Nodup
import Mathlib.Tactic.Common

/-! Finite directory trees as lists of typed paths. -/

namespace ModGate.FileSystem

/-- The components of a path, that is, the texts between its slashes. -/
abbrev Path := List String

inductive FileType
  | dir
  | other
deriving DecidableEq

abbrev Entry := Path × FileType

def child (p : Path) (e : Entry) : Option (String × FileType) :=
  match e.1.getLast? with
  | some name => if e.1.dropLast = p then some (name, e.2) else none
  | none => none

def children (p : Path) (es : List Entry) : List (String × FileType) := es.filterMap (child p)

def erase (p : Path) (es : List Entry) : List Entry := es.filter fun e => e.1 ≠ p

def outside (p : Path) (es : List Entry) : List Entry := es.filter fun e => ¬ p <+: e.1

/-- Every entry of a directory that is not a root has its directory, and a name of its own. -/
structure WellFormed (es : List Entry) : Prop where
  distinct : (es.map Prod.fst).Nodup
  rooted : ∀ e ∈ es, e.1 ≠ []
  closed : ∀ e ∈ es, e.1.dropLast ≠ [] → (e.1.dropLast, FileType.dir) ∈ es
  plain : ∀ e ∈ es, e.1.dropLast ≠ [] → e.1.getLast? ≠ some "." ∧ e.1.getLast? ≠ some ".."

section Entries

variable {p q : Path} {es : List Entry} {name : String} {t : FileType}

lemma child_eq_some {e : Entry} : child p e = some (name, t) ↔ e = (p ++ [name], t) := by
  obtain ⟨q, u⟩ := e
  rcases List.eq_nil_or_concat q with rfl | ⟨init, last, rfl⟩
  · simp [child]
  · simp only [child, List.concat_eq_append, List.getLast?_concat, List.dropLast_concat]
    by_cases hinit : init = p
    · subst hinit
      simp
    · rw [if_neg hinit]
      refine iff_of_false (by simp) fun heq => hinit ?_
      exact (List.append_inj' (congrArg Prod.fst heq) rfl).1

lemma mem_children : (name, t) ∈ children p es ↔ (p ++ [name], t) ∈ es := by
  rw [children, List.mem_filterMap]
  constructor
  · rintro ⟨e, he, hchild⟩
    exact child_eq_some.mp hchild ▸ he
  · intro h
    exact ⟨_, h, child_eq_some.mpr rfl⟩

lemma mem_erase {e : Entry} : e ∈ erase p es ↔ e ∈ es ∧ e.1 ≠ p := by
  simp [erase]

lemma mem_outside {e : Entry} : e ∈ outside p es ↔ e ∈ es ∧ ¬ p <+: e.1 := by
  simp [outside]

namespace WellFormed

lemma unique (h : WellFormed es) {u : FileType} (ht : (p, t) ∈ es) (hu : (p, u) ∈ es) : t = u := by
  have heq := List.inj_on_of_nodup_map h.distinct ht hu rfl
  exact congrArg Prod.snd heq

lemma parent (h : WellFormed es) (hp : p ≠ []) (hmem : (p ++ [name], t) ∈ es) :
    (p, FileType.dir) ∈ es := by
  have hclosed := h.closed _ hmem
  rw [List.dropLast_concat] at hclosed
  exact hclosed hp

lemma name_plain (h : WellFormed es) (hp : p ≠ []) (hmem : (p ++ [name], t) ∈ es) :
    name ≠ "." ∧ name ≠ ".." := by
  have hplain := h.plain _ hmem
  rw [List.dropLast_concat, List.getLast?_concat] at hplain
  simpa using hplain hp

lemma nodup_children (h : WellFormed es) (p : Path) : ((children p es).map Prod.fst).Nodup := by
  have hchild : (children p es).Nodup := by
    refine h.distinct.of_map.filterMap ?_
    rintro a b ⟨name, t⟩ ha hb
    exact (child_eq_some.mp ha).trans (child_eq_some.mp hb).symm
  apply hchild.map_on
  rintro ⟨name, t⟩ ht ⟨_, u⟩ hu rfl
  rw [h.unique (mem_children.mp ht) (mem_children.mp hu)]

lemma above (h : WellFormed es) {x : String} {xs : List String} (hxs : xs ≠ [])
    (hmem : (p ++ x :: xs, t) ∈ es) : (p ++ [x], FileType.dir) ∈ es := by
  induction xs using List.reverseRecOn generalizing t with
  | nil => exact absurd rfl hxs
  | append_singleton xs last ih =>
    have hmem' : ((p ++ x :: xs) ++ [last], t) ∈ es := by
      simpa using hmem
    have hparent := h.parent (by simp) hmem'
    by_cases hnil : xs = []
    · subst hnil
      exact hparent
    · exact ih hnil hparent

protected lemma erase (h : WellFormed es) (hp : (p, FileType.other) ∈ es) :
    WellFormed (erase p es) where
  distinct := h.distinct.sublist (List.filter_sublist.map _)
  rooted := fun e he => h.rooted e (mem_erase.mp he).1
  closed := by
    intro e he hne
    have hdir := h.closed e (mem_erase.mp he).1 hne
    refine mem_erase.mpr ⟨hdir, ?_⟩
    rintro rfl
    exact absurd (h.unique hdir hp) (by decide)
  plain := fun e he => h.plain e (mem_erase.mp he).1

end WellFormed

end Entries

end ModGate.FileSystem
