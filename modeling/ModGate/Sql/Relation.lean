import ModGate.Sql.Value
import Mathlib.Data.List.Nodup

/-! Conditions over the columns of a row, and the statements that use them: selection in
rowid order and in-place update. -/

namespace ModGate.Sql

variable {γ ρ : Type}

inductive Term (γ : Type)
  | column (c : γ)
  | literal (v : Value)
  | length (t : Term γ)

inductive Condition (γ : Type)
  | compare (op : Comparison) (s t : Term γ)
  | isNull (t : Term γ)
  | and (a b : Condition γ)
  | or (a b : Condition γ)

def Term.eval (row : γ → Value) : Term γ → Value
  | .column c => row c
  | .literal v => v
  | .length t => (t.eval row).length

def Condition.eval (row : γ → Value) : Condition γ → Option Bool
  | .compare op s t => op.eval (s.eval row) (t.eval row)
  | .isNull t => some (t.eval row == .null)
  | .and a b => and3 (a.eval row) (b.eval row)
  | .or a b => or3 (a.eval row) (b.eval row)

-- A row passes a WHERE clause when the clause is true of it, neither false nor unknown.
def Condition.Holds (p : Condition γ) (row : γ → Value) : Prop := p.eval row = some true

instance (p : Condition γ) (row : γ → Value) : Decidable (p.Holds row) :=
  inferInstanceAs (Decidable (_ = _))

@[simp] lemma holds_compare (op : Comparison) (s t : Term γ) (row : γ → Value) :
    (Condition.compare op s t).Holds row ↔ op.eval (s.eval row) (t.eval row) = some true := Iff.rfl

@[simp] lemma holds_isNull (t : Term γ) (row : γ → Value) :
    (Condition.isNull t).Holds row ↔ t.eval row = .null := by
  simp [Condition.Holds, Condition.eval]

@[simp] lemma holds_and (a b : Condition γ) (row : γ → Value) :
    (Condition.and a b).Holds row ↔ a.Holds row ∧ b.Holds row := and3_eq_true _ _

@[simp] lemma holds_or (a b : Condition γ) (row : γ → Value) :
    (Condition.or a b).Holds row ↔ a.Holds row ∨ b.Holds row := or3_eq_true _ _

def emptyLength (c : γ) : Condition γ :=
  .compare .eq (.length (.column c)) (.literal (.integer 0))

lemma emptyLength_null {c : γ} {row : γ → Value} (h : row c = .null) :
    ¬ (emptyLength c).Holds row := by
  simp [emptyLength, Term.eval, h, Value.length]

lemma emptyLength_integer {c : γ} {row : γ → Value} {i : ℤ} (h : row c = .integer i) :
    ¬ (emptyLength c).Holds row := by
  have hp := Value.toString_length_pos i
  simp only [emptyLength, holds_compare, Term.eval, h, Value.length, eq_integer]
  omega

lemma emptyLength_empty {c : γ} {row : γ → Value} (h : row c = .text "") :
    (emptyLength c).Holds row := by
  simp [emptyLength, Term.eval, h, Value.length]

variable (cells : ρ → γ → Value)

def select (p : Condition γ) (rows : List ρ) : List ρ := rows.filter fun r => p.Holds (cells r)

def selectFirst (p : Condition γ) (rows : List ρ) : Option ρ :=
  rows.find? fun r => p.Holds (cells r)

@[simp] lemma mem_select {p : Condition γ} {rows : List ρ} {r : ρ} :
    r ∈ select cells p rows ↔ r ∈ rows ∧ p.Holds (cells r) := by
  simp [select]

lemma selectFirst_holds {p : Condition γ} {rows : List ρ} {r : ρ}
    (h : selectFirst cells p rows = some r) : r ∈ rows ∧ p.Holds (cells r) :=
  ⟨List.mem_of_find?_eq_some h, by simpa using List.find?_some h⟩

lemma selectFirst_eq_none {p : Condition γ} {rows : List ρ} :
    selectFirst cells p rows = none ↔ ∀ r ∈ rows, ¬ p.Holds (cells r) := by
  simp [selectFirst]

lemma selectFirst_eq_some {p : Condition γ} {rows : List ρ} {r : ρ} :
    selectFirst cells p rows = some r ↔
      p.Holds (cells r) ∧ ∃ before after, rows = before ++ r :: after ∧
        ∀ q ∈ before, ¬ p.Holds (cells q) := by
  simp [selectFirst, List.find?_eq_some_iff_append]

lemma selectFirst_of_holds {p : Condition γ} {r : ρ} (h : p.Holds (cells r))
    (before after : List ρ) :
    selectFirst cells p (before ++ r :: after) = some r ∨
      ∃ q ∈ before, selectFirst cells p (before ++ r :: after) = some q := by
  cases hf : selectFirst cells p before with
  | none => exact Or.inl ((selectFirst_eq_some cells).mpr
      ⟨h, before, after, rfl, (selectFirst_eq_none cells).mp hf⟩)
  | some q =>
    refine Or.inr ⟨q, (selectFirst_holds cells hf).1, ?_⟩
    simp only [selectFirst, List.find?_append] at hf ⊢
    rw [hf, Option.some_or]

lemma selectFirst_congr {p : Condition γ} {rows : List ρ} (q : ρ → Bool)
    (h : ∀ r ∈ rows, p.Holds (cells r) ↔ q r = true) :
    selectFirst cells p rows = rows.find? q := by
  induction rows with
  | nil => rfl
  | cons r rows ih =>
    have hr := h r (by simp)
    have ht := ih fun r' hr' => h r' (by simp [hr'])
    simp only [selectFirst] at ht ⊢
    by_cases hq : q r = true
    · simp [hq, hr.mpr hq]
    · simp [hq, mt hr.mp hq, ht]

section Cursor

variable {κ : Type} [DecidableEq κ] (key : ρ → κ)

def rewrite (k : κ) (f : ρ → ρ) (rows : List ρ) : List ρ :=
  rows.map fun r => if key r = k then f r else r

lemma rewrite_keys (k : κ) {f : ρ → ρ} (hf : ∀ r, key (f r) = key r) (rows : List ρ) :
    (rewrite key k f rows).map key = rows.map key := by
  simp only [rewrite, List.map_map]
  congr 1
  funext r
  by_cases h : key r = k <;> simp [h, hf]

lemma rewrite_own {f : ρ → ρ} {before after : List ρ} {r : ρ}
    (hn : ((before ++ r :: after).map key).Nodup) :
    rewrite key (key r) f (before ++ r :: after) = before ++ f r :: after := by
  rw [List.map_append, List.map_cons, List.nodup_middle, List.nodup_cons, List.mem_append] at hn
  have hsame : ∀ l : List ρ, key r ∉ l.map key →
      (l.map fun q => if key q = key r then f q else q) = l := fun l hl => by
    refine (List.map_congr_left fun q hq => if_neg fun he => ?_).trans (List.map_id' l)
    exact hl (he ▸ List.mem_map_of_mem hq)
  rw [rewrite, List.map_append, List.map_cons, hsame before fun h => hn.1 (Or.inl h),
    hsame after fun h => hn.1 (Or.inr h), if_pos rfl]

lemma foldl_rewrite {f : ρ → ρ} (hf : ∀ r, key (f r) = key r) (ks : List κ) (hn : ks.Nodup)
    (rows : List ρ) :
    ks.foldl (fun t k => rewrite key k f t) rows =
      rows.map fun r => if key r ∈ ks then f r else r := by
  induction ks generalizing rows with
  | nil => simp
  | cons k ks ih =>
    obtain ⟨hk, hn⟩ := List.nodup_cons.mp hn
    rw [List.foldl_cons, ih hn, rewrite, List.map_map]
    congr 1
    funext r
    by_cases hr : key r = k
    · simp [hr, hf, hk]
    · simp [hr]

lemma foldl_rewrite_all {f : ρ → ρ} (hf : ∀ r, key (f r) = key r) {rows : List ρ}
    (hn : (rows.map key).Nodup) :
    (rows.map key).foldl (fun t k => rewrite key k f t) rows = rows.map f := by
  rw [foldl_rewrite key hf _ hn]
  exact List.map_congr_left fun r hr => if_pos (List.mem_map_of_mem hr)

end Cursor

end ModGate.Sql
