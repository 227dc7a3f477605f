import ModGate.Containers.Split
import ModGate.Containers.Table
import ModGate.Url.Codec

/-! Query strings: `parse_query_string` splits at `&`, takes each item apart at its first `=` and
merges the decoded pair into a table. -/

namespace ModGate.Url

open Containers

abbrev ArgTable := List (Bytes × Bytes)

def lower (c : UInt8) : UInt8 := if 65 ≤ c ∧ c ≤ 90 then c + 32 else c

-- `apr_table_merge`: keys are equal ignoring case, values are joined by a comma and a blank.
def mergeArg (t : ArgTable) (key value : Bytes) : ArgTable :=
  Table.merge (fun k : Bytes => k.map lower) (fun v w => v ++ [44, 32] ++ w) t key value

def parsePair (t : ArgTable) (item : Bytes) : ArgTable :=
  match item.findIdx? (· = 61) with
  | none => t
  | some found =>
    if found = item.length - 1 then t
    else mergeArg t (urlDecode (item.take found) true)
      (urlDecode ((item.drop (found + 1)).take (item.length - 1)) true)

def split (s : Bytes) (delim : UInt8) : List Bytes := splitAt delim s

def parseQueryString (input : Bytes) (t : ArgTable) : ArgTable :=
  (split (cString input) 38).foldl parsePair t

def pairText (p : Bytes × Bytes) : Bytes := urlEncode p.1 ++ 61 :: urlEncode p.2

def queryText (pairs : List (Bytes × Bytes)) : Bytes := List.intercalate [38] (pairs.map pairText)

def mergeAll (t : ArgTable) (pairs : List (Bytes × Bytes)) : ArgTable :=
  pairs.foldl (fun t p => mergeArg t p.1 p.2) t

lemma findIdx?_key {key value : Bytes} (h : 61 ∉ key) :
    (key ++ 61 :: value).findIdx? (· = 61) = some key.length := by
  have hkey : key.findIdx? (· = 61) = none := by
    rw [List.findIdx?_eq_none_iff]
    intro c hc
    simpa using fun h61 : c = 61 => h (h61 ▸ hc)
  rw [List.findIdx?_append, hkey, List.findIdx?_cons]
  simp

lemma parsePair_text (t : ArgTable) {key value : Bytes} (h : 61 ∉ key) :
    parsePair t (key ++ 61 :: value) =
      if value = [] then t else mergeArg t (urlDecode key true) (urlDecode value true) := by
  have hlast : key.length = (key ++ 61 :: value).length - 1 ↔ value = [] := by
    rw [← List.length_eq_zero_iff]
    simp only [List.length_append, List.length_cons]
    omega
  have hdrop : (key ++ 61 :: value).drop (key.length + 1) = value := by
    rw [List.drop_append, List.drop_of_length_le (by omega)]
    simp
  rw [parsePair, findIdx?_key h]
  simp only [hlast, hdrop, List.take_left]
  rw [List.take_of_length_le]
  simp only [List.length_append, List.length_cons]
  omega

lemma urlEncode_eq_nil {s : Bytes} (h : Printable s) : urlEncode s = [] ↔ s = [] := by
  constructor
  · intro he
    rw [← urlDecode_urlEncode h, he]
    rfl
  · rintro rfl
    rfl

lemma parsePair_pairText (t : ArgTable) {p : Bytes × Bytes} (hk : Printable p.1)
    (hv : Printable p.2) :
    parsePair t (pairText p) = if p.2 = [] then t else mergeArg t p.1 p.2 := by
  rw [pairText, parsePair_text t (urlEncode_clean hk.clean).2.2, urlDecode_urlEncode hk,
    urlDecode_urlEncode hv]
  simp only [urlEncode_eq_nil hv]

lemma pairText_clean {p : Bytes × Bytes} (hk : Printable p.1) (hv : Printable p.2) :
    0 ∉ pairText p ∧ 38 ∉ pairText p ∧ pairText p ≠ [] := by
  have hkey := urlEncode_clean hk.clean
  have hvalue := urlEncode_clean hv.clean
  simp [pairText, hkey, hvalue]

lemma foldl_parsePair {pairs : List (Bytes × Bytes)}
    (h : ∀ p ∈ pairs, Printable p.1 ∧ Printable p.2) (t : ArgTable) :
    (pairs.map pairText).foldl parsePair t = mergeAll t (pairs.filter fun p => p.2 ≠ []) := by
  induction pairs generalizing t with
  | nil => rfl
  | cons p pairs ih =>
    obtain ⟨hp, hpairs⟩ := List.forall_mem_cons.mp h
    rw [List.map_cons, List.foldl_cons, ih hpairs, parsePair_pairText t hp.1 hp.2]
    by_cases he : p.2 = []
    · simp [he]
    · simp [he, mergeAll]

lemma queryText_clean {pairs : List (Bytes × Bytes)}
    (h : ∀ p ∈ pairs, Printable p.1 ∧ Printable p.2) : 0 ∉ queryText pairs := by
  intro h0
  rcases mem_intercalate 38 h0 with h38 | ⟨piece, hpiece, h0⟩
  · cases h38
  · obtain ⟨p, hp, rfl⟩ := List.mem_map.mp hpiece
    exact (pairText_clean (h p hp).1 (h p hp).2).1 h0

theorem query_round_trip (pairs : List (Bytes × Bytes))
    (h : ∀ p ∈ pairs, Printable p.1 ∧ Printable p.2) :
    parseQueryString (queryText pairs) [] = mergeAll [] (pairs.filter fun p => p.2 ≠ []) := by
  rw [parseQueryString, cString_clean (queryText_clean h), queryText, split, splitAt_intercalate,
    foldl_parsePair h]
  intro piece hpiece
  obtain ⟨p, hp, rfl⟩ := List.mem_map.mp hpiece
  exact (pairText_clean (h p hp).1 (h p hp).2).2

-- The pairs are `&= : %+` with value `=&%41`, an empty key, and an empty value.
theorem delimiters_round_trip :
    let pairs : List (Bytes × Bytes) :=
      [([38, 61, 32, 58, 32, 37, 43], [61, 38, 37, 52, 49]), ([], [120]), ([107], [])]
    parseQueryString (queryText pairs) [] =
      [([38, 61, 32, 58, 32, 37, 43], [61, 38, 37, 52, 49]), ([], [120])] := by
  intro pairs
  have hround := query_round_trip pairs (by simp [pairs, Printable])
  exact hround.trans (by decide)

lemma foldl_empty_items {items : List Bytes} (h : items = [] ∨ items = [[]]) (t : ArgTable) :
    items.foldl parsePair t = t := by
  rcases h with rfl | rfl
  · rfl
  · rfl

theorem parseQueryString_append {a b : Bytes} (ha : 0 ∉ a) (hb : 0 ∉ b) (t : ArgTable) :
    parseQueryString (a ++ 38 :: b) t = parseQueryString b (parseQueryString a t) := by
  have hclean : 0 ∉ a ++ 38 :: b := by simp [ha, hb]
  obtain ⟨ends, hends, hsplit⟩ := splitAt_append 38 a b
  simp only [parseQueryString, cString_clean ha, cString_clean hb, cString_clean hclean, split]
  rw [hsplit, List.foldl_append, List.foldl_append, foldl_empty_items hends]

-- The texts are `=x&&k` and `k=1&=`, on a table that has the key `K`.
theorem malformed_segments_skipped :
    let t : ArgTable := [([75], [48])]
    parseQueryString ([61, 120, 38, 38, 107] ++ 38 :: [107, 61, 49, 38, 61]) t =
      [([75], [48, 44, 32, 49]), ([], [120])] := by
  intro t
  have happend := parseQueryString_append (a := [61, 120, 38, 38, 107])
    (b := [107, 61, 49, 38, 61]) (by decide) (by decide) t
  exact happend.trans (by decide)

end ModGate.Url
