import Mathlib.Data.List.Nodup

/-! Ordered tables whose keys are compared through a folding map, with overwriting insertion,
and the last-writer reading of a list of writes. -/

namespace ModGate.Containers

section LastWriter

variable {α β : Type}

def lastSome (f : α → Option β) : List α → Option β
  | [] => none
  | a :: as => (lastSome f as).or (f a)

lemma lastSome_append (f : α → Option β) (as bs : List α) :
    lastSome f (as ++ bs) = (lastSome f bs).or (lastSome f as) := by
  induction as with
  | nil => simp [lastSome]
  | cons a as ih => simp [lastSome, ih, Option.or_assoc]

@[simp] lemma lastSome_concat (f : α → Option β) (as : List α) (a : α) :
    lastSome f (as ++ [a]) = (f a).or (lastSome f as) := by
  rw [lastSome_append]
  rfl

lemma lastSome_eq_none {f : α → Option β} {as : List α} :
    lastSome f as = none ↔ ∀ a ∈ as, f a = none := by
  induction as with
  | nil => simp [lastSome]
  | cons a as ih => simp [lastSome, ih, and_comm]

lemma lastSome_mem {f : α → Option β} {as : List α} {b : β} (h : lastSome f as = some b) :
    ∃ a ∈ as, f a = some b := by
  induction as with
  | nil => cases h
  | cons a as ih =>
    rcases Option.or_eq_some_iff.mp h with h | ⟨-, h⟩
    · obtain ⟨a', ha', hb⟩ := ih h
      exact ⟨a', List.mem_cons_of_mem _ ha', hb⟩
    · exact ⟨a, List.mem_cons_self, h⟩

lemma lastSome_congr {f g : α → Option β} {as : List α} (h : ∀ a ∈ as, f a = g a) :
    lastSome f as = lastSome g as := by
  induction as with
  | nil => rfl
  | cons a as ih =>
    rw [lastSome, lastSome, h a (by simp), ih fun b hb => h b (by simp [hb])]

end LastWriter

namespace Table

variable {κ ν ι : Type} [DecidableEq ι] (fold : κ → ι)

def get : List (κ × ν) → κ → Option ν
  | [], _ => none
  | e :: t, k => if fold e.1 = fold k then some e.2 else get t k

def erase (t : List (κ × ν)) (k : κ) : List (κ × ν) := t.filter fun e => fold e.1 ≠ fold k

/-- The first entry under the key keeps its place and its spelling and takes the new value,
later ones are removed; without any, the entry is appended. -/
def set : List (κ × ν) → κ → ν → List (κ × ν)
  | [], k, v => [(k, v)]
  | e :: t, k, v => if fold e.1 = fold k then (e.1, v) :: erase fold t k else e :: set t k v

/-- The first entry under the key takes its old value joined with the new one. -/
def merge (join : ν → ν → ν) : List (κ × ν) → κ → ν → List (κ × ν)
  | [], k, v => [(k, v)]
  | e :: t, k, v => if fold e.1 = fold k then (e.1, join e.2 v) :: t else e :: merge join t k v

def setAll (t es : List (κ × ν)) : List (κ × ν) := es.foldl (fun t e => set fold t e.1 e.2) t

def overlay (a b : List (κ × ν)) : List (κ × ν) := a ++ b

def compress (t : List (κ × ν)) : List (κ × ν) := setAll fold [] t

def lastValue (t : List (κ × ν)) (k : κ) : Option ν :=
  lastSome (fun e => if fold e.1 = fold k then some e.2 else none) t

def Distinct (t : List (κ × ν)) : Prop := (t.map fun e => fold e.1).Nodup

instance (t : List (κ × ν)) : Decidable (Distinct fold t) :=
  inferInstanceAs (Decidable (List.Nodup _))

lemma get_congr (t : List (κ × ν)) {j k : κ} (h : fold j = fold k) :
    get fold t j = get fold t k := by
  induction t with
  | nil => rfl
  | cons e t ih => rw [get, get, h, ih]

lemma mem_of_get {t : List (κ × ν)} {k : κ} {v : ν} (h : get fold t k = some v) :
    ∃ e ∈ t, fold e.1 = fold k ∧ e.2 = v := by
  induction t with
  | nil => cases h
  | cons e t ih =>
    by_cases he : fold e.1 = fold k
    · rw [get, if_pos he] at h
      exact ⟨e, List.mem_cons_self, he, Option.some.inj h⟩
    · rw [get, if_neg he] at h
      obtain ⟨d, hd, hk⟩ := ih h
      exact ⟨d, List.mem_cons_of_mem e hd, hk⟩

lemma get_of_mem {t : List (κ × ν)} (h : Distinct fold t) {e : κ × ν} (he : e ∈ t) :
    get fold t e.1 = some e.2 := by
  induction t with
  | nil => cases he
  | cons d t ih =>
    simp only [Distinct, List.map_cons, List.nodup_cons, List.mem_map, not_exists, not_and] at h
    rcases List.mem_cons.mp he with rfl | he
    · rw [get, if_pos rfl]
    · rw [get, if_neg fun hk => h.1 e he hk.symm]
      exact ih h.2 he

lemma get_perm {t u : List (κ × ν)} (h : Distinct fold t) (hp : t.Perm u) (k : κ) :
    get fold t k = get fold u k := by
  have hu : Distinct fold u := (hp.map fun e : κ × ν => fold e.1).nodup_iff.mp h
  apply Option.ext
  intro v
  constructor
  · intro hv
    obtain ⟨e, he, hk, rfl⟩ := mem_of_get fold hv
    rw [← get_congr fold u hk, get_of_mem fold hu (hp.subset he)]
  · intro hv
    obtain ⟨e, he, hk, rfl⟩ := mem_of_get fold hv
    rw [← get_congr fold t hk, get_of_mem fold h (hp.symm.subset he)]

lemma get_erase_ne (t : List (κ × ν)) {j k : κ} (h : fold j ≠ fold k) :
    get fold (erase fold t k) j = get fold t j := by
  induction t with
  | nil => rfl
  | cons e t ih =>
    by_cases he : fold e.1 = fold k
    · have hj : ¬ fold e.1 = fold j := fun hh => h (hh.symm.trans he)
      simpa [erase, get, he, hj, Ne.symm h] using ih
    · by_cases hj : fold e.1 = fold j <;> simp_all [erase, get]

lemma get_set (t : List (κ × ν)) (j k : κ) (v : ν) :
    get fold (set fold t k v) j = if fold k = fold j then some v else get fold t j := by
  induction t with
  | nil => simp [set, get]
  | cons e t ih =>
    by_cases he : fold e.1 = fold k
    · by_cases hj : fold k = fold j
      · simp [set, get, he, hj]
      · simp [set, get, he, hj, get_erase_ne fold t (Ne.symm hj)]
    · by_cases hj : fold e.1 = fold j
      · have hk : ¬ fold k = fold j := fun hh => he (hj.trans hh.symm)
        rw [set, if_neg he, get, if_pos hj, if_neg hk, get, if_pos hj]
      · simp [set, get, he, hj, ih]

lemma get_setAll (t es : List (κ × ν)) (k : κ) :
    get fold (setAll fold t es) k = (lastValue fold es k).or (get fold t k) := by
  induction es generalizing t with
  | nil => simp [setAll, lastValue, lastSome]
  | cons e es ih =>
    have hh := ih (set fold t e.1 e.2)
    simp only [setAll, List.foldl_cons] at hh ⊢
    rw [hh, get_set]
    by_cases he : fold e.1 = fold k <;> simp [lastValue, lastSome, he]

lemma mem_erase {t : List (κ × ν)} {k : κ} {e : κ × ν} (h : e ∈ erase fold t k) :
    e ∈ t ∧ fold e.1 ≠ fold k := by
  simpa [erase] using h

lemma mem_set {t : List (κ × ν)} {k : κ} {v : ν} {e : κ × ν} (h : e ∈ set fold t k v) :
    fold e.1 = fold k ∨ e ∈ t := by
  induction t with
  | nil => exact Or.inl (by simp_all [set])
  | cons d t ih =>
    by_cases hd : fold d.1 = fold k
    · simp only [set, hd, if_true, List.mem_cons] at h
      rcases h with rfl | h
      · exact Or.inl hd
      · exact Or.inr (List.mem_cons_of_mem _ (mem_erase fold h).1)
    · simp only [set, hd, if_false, List.mem_cons] at h
      rcases h with rfl | h
      · exact Or.inr (by simp)
      · exact (ih h).imp_right (List.mem_cons_of_mem _)

lemma distinct_set {t : List (κ × ν)} (h : Distinct fold t) (k : κ) (v : ν) :
    Distinct fold (set fold t k v) := by
  induction t with
  | nil => simp [set, Distinct]
  | cons d t ih =>
    simp only [Distinct, List.map_cons, List.nodup_cons, List.mem_map, not_exists, not_and] at h ih
    by_cases hd : fold d.1 = fold k
    · simp only [set, hd, if_true, Distinct, List.map_cons, List.nodup_cons, List.mem_map]
      refine ⟨?_, h.2.sublist (List.filter_sublist.map _)⟩
      rintro ⟨e, he, hk⟩
      exact (mem_erase fold he).2 hk
    · simp only [set, hd, if_false, Distinct, List.map_cons, List.nodup_cons, List.mem_map]
      refine ⟨?_, ih h.2⟩
      rintro ⟨e, he, hk⟩
      rcases mem_set fold he with hk' | hm
      · exact hd (hk.symm.trans hk')
      · exact h.1 e hm hk

lemma distinct_setAll {t : List (κ × ν)} (h : Distinct fold t) (es : List (κ × ν)) :
    Distinct fold (setAll fold t es) := by
  induction es generalizing t with
  | nil => exact h
  | cons e es ih => exact ih (distinct_set fold h e.1 e.2)

lemma distinct_compress (t : List (κ × ν)) : Distinct fold (compress fold t) :=
  distinct_setAll fold (t := []) List.nodup_nil t

lemma get_compress (t : List (κ × ν)) (k : κ) :
    get fold (compress fold t) k = lastValue fold t k := by
  rw [compress, get_setAll]
  exact Option.or_none

lemma lastValue_eq_get {t : List (κ × ν)} (h : Distinct fold t) (k : κ) :
    lastValue fold t k = get fold t k := by
  induction t with
  | nil => rfl
  | cons e t ih =>
    simp only [Distinct, List.map_cons, List.nodup_cons, List.mem_map, not_exists, not_and] at h
    have ht := ih h.2
    simp only [lastValue, lastSome, get] at ht ⊢
    by_cases he : fold e.1 = fold k
    · have hn : lastSome (fun d => if fold d.1 = fold k then some d.2 else none) t = none :=
        lastSome_eq_none.mpr fun d hd => if_neg fun hk => h.1 d hd (hk.trans he.symm)
      simp [hn, he]
    · simp [ht, he]

lemma get_compress_overlay {a b : List (κ × ν)} (ha : Distinct fold a) (hb : Distinct fold b)
    (k : κ) :
    get fold (compress fold (overlay a b)) k = (get fold b k).or (get fold a k) := by
  rw [get_compress, overlay, lastValue, lastSome_append]
  exact congrArg₂ Option.or (lastValue_eq_get fold hb k) (lastValue_eq_get fold ha k)

section Merge

variable (join : ν → ν → ν)

def collect (old : Option ν) (v : ν) : Option ν := some (old.elim v fun w => join w v)

def mergeEach (t es : List (κ × ν)) : List (κ × ν) :=
  es.foldl (fun t e => merge fold join t e.1 e.2) t

lemma get_merge_collect (t : List (κ × ν)) (j k : κ) (v : ν) :
    get fold (merge fold join t j v) k =
      if fold j = fold k then collect join (get fold t k) v else get fold t k := by
  induction t with
  | nil => rfl
  | cons e t ih =>
    by_cases hj : fold e.1 = fold j
    · by_cases hk : fold j = fold k
      · simp [merge, get, hj, hk, collect]
      · simp [merge, get, hj, hk]
    · rw [merge, if_neg hj, get, ih, get]
      by_cases hk : fold j = fold k
      · rw [hk] at hj
        simp [hj, hk]
      · simp [hk]

-- What is under a key is made of the values written under it, in their order.
lemma get_mergeEach (t es : List (κ × ν)) (k : κ) :
    get fold (mergeEach fold join t es) k =
      ((es.filter fun e => fold e.1 = fold k).map Prod.snd).foldl (collect join)
        (get fold t k) := by
  induction es generalizing t with
  | nil => rfl
  | cons e es ih =>
    change get fold (mergeEach fold join (merge fold join t e.1 e.2) es) k = _
    rw [ih, get_merge_collect]
    by_cases hk : fold e.1 = fold k
    · rw [if_pos hk, List.filter_cons_of_pos (by simpa using hk), List.map_cons, List.foldl_cons]
    · rw [if_neg hk, List.filter_cons_of_neg (by simpa using hk)]

lemma keys_merge (t : List (κ × ν)) (k : κ) (v : ν) :
    (merge fold join t k v).map (fun e => fold e.1) =
      t.map (fun e => fold e.1) ++
        if fold k ∈ t.map (fun e => fold e.1) then [] else [fold k] := by
  induction t with
  | nil => rfl
  | cons e t ih =>
    by_cases hk : fold e.1 = fold k
    · simp [merge, hk]
    · have hk' : fold k ≠ fold e.1 := fun heq => hk heq.symm
      simp only [merge, hk, if_false, List.map_cons, ih, List.cons_append, List.mem_cons, hk',
        false_or]

lemma distinct_merge {t : List (κ × ν)} (h : Distinct fold t) (k : κ) (v : ν) :
    Distinct fold (merge fold join t k v) := by
  unfold Distinct
  rw [keys_merge]
  split
  · rw [List.append_nil]
    exact h
  · next hk =>
    refine List.nodup_append.mpr ⟨h, List.nodup_singleton _, fun a ha b hb heq => hk ?_⟩
    rw [← List.mem_singleton.mp hb, ← heq]
    exact ha

lemma distinct_mergeEach {t : List (κ × ν)} (h : Distinct fold t) (es : List (κ × ν)) :
    Distinct fold (mergeEach fold join t es) := by
  induction es generalizing t with
  | nil => exact h
  | cons e es ih => exact ih (distinct_merge fold join h e.1 e.2)

lemma merge_of_notMem {t : List (κ × ν)} {k : κ} (h : fold k ∉ t.map fun e => fold e.1) (v : ν) :
    merge fold join t k v = t ++ [(k, v)] := by
  induction t with
  | nil => rfl
  | cons e t ih =>
    simp only [List.map_cons, List.mem_cons, not_or] at h
    rw [merge, if_neg (Ne.symm h.1), ih h.2, List.cons_append]

lemma length_merge (t : List (κ × ν)) (k : κ) (v : ν) :
    (merge fold join t k v).length =
      t.length + if fold k ∈ t.map (fun e => fold e.1) then 0 else 1 := by
  have hkeys := congrArg List.length (keys_merge fold join t k v)
  rw [List.length_append, List.length_map, List.length_map] at hkeys
  rw [hkeys]
  split <;> rfl

-- A table grows by every entry that is merged only if none meets its key.
lemma length_mergeEach (t es : List (κ × ν)) :
    (mergeEach fold join t es).length ≤ t.length + es.length ∧
      ((mergeEach fold join t es).length = t.length + es.length →
        mergeEach fold join t es = t ++ es) := by
  induction es generalizing t with
  | nil => exact ⟨Nat.le_refl _, fun _ => (List.append_nil t).symm⟩
  | cons e es ih =>
    obtain ⟨hle, heq⟩ := ih (merge fold join t e.1 e.2)
    have hlength := length_merge fold join t e.1 e.2
    change (mergeEach fold join (merge fold join t e.1 e.2) es).length ≤ _ ∧
      ((mergeEach fold join (merge fold join t e.1 e.2) es).length = _ →
        mergeEach fold join (merge fold join t e.1 e.2) es = _)
    rw [List.length_cons]
    split at hlength
    · exact ⟨by omega, fun hfull => by omega⟩
    · next hnew =>
      refine ⟨by omega, fun hfull => ?_⟩
      rw [heq (by omega), merge_of_notMem fold join hnew, List.append_assoc,
        List.singleton_append]

lemma mergeEach_of_distinct {es : List (κ × ν)} (h : Distinct fold es) :
    mergeEach fold join [] es = es := by
  suffices hall : ∀ t, Distinct fold (t ++ es) → mergeEach fold join t es = t ++ es from hall [] h
  clear h
  induction es with
  | nil => exact fun t _ => (List.append_nil t).symm
  | cons e es ih =>
    intro t h
    have hnew : fold e.1 ∉ t.map fun e => fold e.1 := by
      rw [Distinct, List.map_append, List.nodup_append] at h
      exact fun hmem => h.2.2 _ hmem _ (List.mem_map_of_mem List.mem_cons_self) rfl
    have hrest := ih (t ++ [e]) (by rwa [List.append_assoc])
    rw [List.append_assoc] at hrest
    rw [← merge_of_notMem fold join hnew] at hrest
    exact hrest

end Merge

end Table

end ModGate.Containers
