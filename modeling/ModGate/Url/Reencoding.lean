import ModGate.Body.Forms
import ModGate.Url.Encoder
import Mathlib.Data.List.TakeWhile

/-! Writing a parsed query as a text again: what `parse_query_string` has made of a query, encoded
by `url_encode` and parsed once more. -/

namespace ModGate.Url

open Containers

def recode (s : Bytes) : Bytes := s.flatMap recoded

def Clean (t : ArgTable) : Prop := ∀ e ∈ t, 0 ∉ e.1 ∧ 0 ∉ e.2

/-- The bytes that `url_encode` and `url_decode` bring back. -/
def Survives (s : Bytes) : Prop := ∀ c ∈ s, 16 ≤ c ∧ c < 128 ∨ c = 255

lemma recode_eq_self_iff {s : Bytes} (h : 0 ∉ s) : recode s = s ↔ Survives s := by
  rw [recode, flatMap_eq_self_iff recoded_ne_nil]
  apply forall₂_congr
  intro c hc
  exact recoded_fixed_iff fun hc0 => h (hc0 ▸ hc)

lemma encoded_ne_nil (c : UInt8) : encoded c ≠ [] :=
  forall_byte (p := fun c => encoded c ≠ []) (by decide +kernel) c

lemma urlEncode_eq_nil_iff {s : Bytes} (h : 0 ∉ s) : urlEncode s = [] ↔ s = [] := by
  rw [urlEncode_eq h, List.flatMap_eq_nil_iff]
  constructor
  · intro hnil
    cases s with
    | nil => rfl
    | cons c s => exact absurd (hnil c List.mem_cons_self) (encoded_ne_nil c)
  · rintro rfl c hc
    cases hc

section Reencoding

variable {t : ArgTable}

lemma argument_pairText {e : Bytes × Bytes} (hkey : 0 ∉ e.1) (hvalue : 0 ∉ e.2) :
    Body.argument (pairText e) = if e.2 = [] then none else some (recode e.1, recode e.2) := by
  rw [pairText, Body.argument_text (urlEncode_clean hkey).2.2, urlDecode_urlEncode_eq hkey,
    urlDecode_urlEncode_eq hvalue]
  simp only [urlEncode_eq_nil_iff hvalue]
  rfl

lemma arguments_queryText (h : Clean t) :
    Body.arguments (queryText t) =
      (t.filter fun e => e.2 ≠ []).map fun e => (recode e.1, recode e.2) := by
  have hpieces : ∀ p ∈ t.map pairText, 38 ∉ p ∧ p ≠ [] := by
    intro p hp
    obtain ⟨e, he, rfl⟩ := List.mem_map.mp hp
    have hkey := urlEncode_clean (h e he).1
    have hvalue := urlEncode_clean (h e he).2
    simp [pairText, hkey, hvalue]
  rw [Body.arguments, queryText, splitAt_intercalate 38 hpieces]
  clear hpieces
  induction t with
  | nil => rfl
  | cons e t ih =>
    obtain ⟨⟨hkey, hvalue⟩, ht⟩ := List.forall_mem_cons.mp h
    rw [List.map_cons, List.filterMap_cons, argument_pairText hkey hvalue, ih ht]
    by_cases he : e.2 = []
    · rw [if_pos he, List.filter_cons_of_neg (by simpa using he)]
    · rw [if_neg he, List.filter_cons_of_pos (by simpa using he), List.map_cons]

lemma queryText_noNul (h : Clean t) : 0 ∉ queryText t := by
  intro hzero
  rcases mem_intercalate 38 hzero with h38 | ⟨piece, hpiece, hzero⟩
  · cases h38
  · obtain ⟨e, he, rfl⟩ := List.mem_map.mp hpiece
    have hkey := urlEncode_clean (h e he).1
    have hvalue := urlEncode_clean (h e he).2
    simp [pairText, hkey, hvalue] at hzero

lemma parse_queryText (h : Clean t) :
    parseQueryString (queryText t) [] =
      Table.mergeEach Body.foldKey (fun v w => v ++ [44, 32] ++ w) []
        ((t.filter fun e => e.2 ≠ []).map fun e => (recode e.1, recode e.2)) := by
  rw [Body.parseQueryString_eq, cString_clean (queryText_noNul h), arguments_queryText h]

/-- Nothing is dropped and nothing merged, so that every entry has come back by itself. -/
lemma reparsed_iff (h : Clean t) (hdistinct : Table.Distinct Body.foldKey t) :
    parseQueryString (queryText t) [] = t ↔
      ∀ e ∈ t, e.2 ≠ [] ∧ recode e.1 = e.1 ∧ recode e.2 = e.2 := by
  rw [parse_queryText h]
  obtain ⟨hle, hfull⟩ := Table.length_mergeEach Body.foldKey (fun v w => v ++ [44, 32] ++ w) []
    ((t.filter fun e => e.2 ≠ []).map fun e => (recode e.1, recode e.2))
  rw [List.length_nil, Nat.zero_add, List.length_map] at hle hfull
  have hfilter := List.length_filter_le (fun e : Bytes × Bytes => decide (e.2 ≠ [])) t
  constructor
  · intro heq
    rw [heq] at hle hfull
    have hkept : t.filter (fun e => e.2 ≠ []) = t :=
      List.filter_sublist.eq_of_length (Nat.le_antisymm hfilter hle)
    have hsame := hfull (by rw [hkept])
    rw [List.nil_append, hkept] at hsame
    intro e he
    have hvalue : e.2 ≠ [] := by
      rw [← hkept] at he
      simpa using (List.mem_filter.mp he).2
    have hentry := List.map_inj_left.mp (hsame.symm.trans (List.map_id t).symm) e he
    exact ⟨hvalue, congrArg Prod.fst hentry, congrArg Prod.snd hentry⟩
  · intro hall
    have hkept : t.filter (fun e => e.2 ≠ []) = t :=
      List.filter_eq_self.mpr fun e he => by simpa using (hall e he).1
    have hsame : t.map (fun e => (recode e.1, recode e.2)) = t :=
      (List.map_congr_left fun e he => Prod.ext (hall e he).2.1 (hall e he).2.2).trans
        (List.map_id t)
    rw [hkept, hsame]
    exact Table.mergeEach_of_distinct Body.foldKey _ hdistinct

lemma clean_mergeArg (h : Clean t) {key value : Bytes} (hkey : 0 ∉ key) (hvalue : 0 ∉ value) :
    Clean (mergeArg t key value) := by
  rw [mergeArg]
  induction t with
  | nil => exact List.forall_mem_singleton.mpr ⟨hkey, hvalue⟩
  | cons e t ih =>
    obtain ⟨he, ht⟩ := List.forall_mem_cons.mp h
    rw [Table.merge]
    split
    · refine List.forall_mem_cons.mpr ⟨⟨he.1, ?_⟩, ht⟩
      simp only [List.mem_append, not_or]
      exact ⟨⟨he.2, by decide⟩, hvalue⟩
    · exact List.forall_mem_cons.mpr ⟨he, ih ht⟩

lemma urlDecode_noNul (url : Bytes) : 0 ∉ urlDecode url true := by
  intro hzero
  simpa using List.mem_takeWhile_imp hzero

lemma clean_parsed (input : Bytes) (h : Clean t) : Clean (parseQueryString input t) := by
  rw [parseQueryString]
  induction split (cString input) 38 generalizing t with
  | nil => exact h
  | cons item items ih =>
    apply ih
    rw [parsePair]
    split
    · exact h
    · split
      · exact h
      · exact clean_mergeArg h (urlDecode_noNul _) (urlDecode_noNul _)

lemma distinct_parsed (input : Bytes) :
    Table.Distinct Body.foldKey (parseQueryString input []) := by
  rw [Body.parseQueryString_eq]
  have hnil : Table.Distinct Body.foldKey ([] : ArgTable) := List.nodup_nil
  exact Table.distinct_mergeEach _ _ hnil _

end Reencoding

theorem parsed_query_reencodes_iff (input : Bytes) :
    parseQueryString (queryText (parseQueryString input [])) [] = parseQueryString input [] ↔
      ∀ e ∈ parseQueryString input [], e.2 ≠ [] ∧ Survives e.1 ∧ Survives e.2 := by
  have hclean : Clean (parseQueryString input []) :=
    clean_parsed input fun e he => absurd he List.not_mem_nil
  rw [reparsed_iff hclean (distinct_parsed input)]
  apply forall₂_congr
  intro e he
  rw [recode_eq_self_iff (hclean e he).1, recode_eq_self_iff (hclean e he).2]

end ModGate.Url
