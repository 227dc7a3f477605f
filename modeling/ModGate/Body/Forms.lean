import ModGate.Body.Delivery

/-! What `form_data` makes of a posted body. -/

namespace ModGate.Body

open Url Containers Transition

/-- The pair that an item of a form stands for. -/
def argument (item : Bytes) : Option (Bytes × Bytes) :=
  if 61 ∈ item ∧ (item.dropWhile (· ≠ 61)).tail ≠ [] then
    some (urlDecode (item.takeWhile (· ≠ 61)) true,
      urlDecode (item.dropWhile (· ≠ 61)).tail true)
  else none

def arguments (text : Bytes) : List (Bytes × Bytes) := (splitAt 38 text).filterMap argument

def foldKey (key : Bytes) : Bytes := key.map lower

/-- The values under one key, ignoring case, joined by a comma and a blank. -/
def valuesUnder (key : Bytes) (args : List (Bytes × Bytes)) : Option Bytes :=
  match (args.filter fun e => foldKey e.1 = foldKey key).map Prod.snd with
  | [] => none
  | v :: vs => some (List.intercalate [44, 32] (v :: vs))

lemma argument_text {key value : Bytes} (h : 61 ∉ key) :
    argument (key ++ 61 :: value) =
      if value = [] then none else some (urlDecode key true, urlDecode value true) := by
  have hkey : ∀ c ∈ key, decide (c ≠ 61) = true := fun c hc => by
    simpa using fun heq : c = 61 => h (heq ▸ hc)
  have htake : (key ++ 61 :: value).takeWhile (· ≠ 61) = key := by
    rw [List.takeWhile_append_of_pos hkey, List.takeWhile_cons_of_neg (by simp), List.append_nil]
  have hdrop : (key ++ 61 :: value).dropWhile (· ≠ 61) = 61 :: value := by
    rw [List.dropWhile_append_of_pos hkey, List.dropWhile_cons_of_neg (by simp)]
  rw [argument, htake, hdrop, List.tail_cons]
  by_cases hvalue : value = [] <;> simp [hvalue]

lemma parsePair_argument (t : ArgTable) (item : Bytes) :
    parsePair t item = (argument item).elim t fun e => mergeArg t e.1 e.2 := by
  by_cases h : 61 ∈ item
  · obtain ⟨key, value, rfl, hkey⟩ := List.eq_append_cons_of_mem h
    rw [parsePair_text t hkey, argument_text hkey]
    split <;> rfl
  · have hnone : item.findIdx? (· = 61) = none := by
      rw [List.findIdx?_eq_none_iff]
      intro c hc
      simpa using fun heq : c = 61 => h (heq ▸ hc)
    rw [parsePair, hnone, argument, if_neg fun hmem => h hmem.1]
    rfl

lemma parseQueryString_eq (input : Bytes) (t : ArgTable) :
    parseQueryString input t =
      Table.mergeEach foldKey (fun v w => v ++ [44, 32] ++ w) t (arguments (cString input)) := by
  rw [parseQueryString, split, arguments]
  induction splitAt 38 (cString input) generalizing t with
  | nil => rfl
  | cons item items ih =>
    rw [List.foldl_cons, ih, parsePair_argument, List.filterMap_cons]
    cases argument item <;> rfl

lemma foldl_collect (v : Bytes) (vs : List Bytes) :
    vs.foldl (Table.collect fun v w => v ++ [44, 32] ++ w) (some v) =
      some (List.intercalate [44, 32] (v :: vs)) := by
  induction vs generalizing v with
  | nil => simp [List.intercalate]
  | cons w vs ih =>
    rw [List.foldl_cons]
    change List.foldl _ (some (v ++ [44, 32] ++ w)) vs = _
    rw [ih]
    cases vs <;> simp [List.intercalate]

lemma get_parsed (input key : Bytes) :
    Table.get foldKey (parseQueryString input []) key =
      valuesUnder key (arguments (cString input)) := by
  rw [parseQueryString_eq, Table.get_mergeEach, valuesUnder]
  cases ((arguments (cString input)).filter fun e => foldKey e.1 = foldKey key).map Prod.snd with
  | nil => rfl
  | cons v vs =>
    rw [List.foldl_cons]
    exact foldl_collect v vs

lemma cString_concat_nul (body : Bytes) : cString (body ++ [0]) = cString body := by
  induction body with
  | nil => rfl
  | cons c body ih =>
    by_cases hc : c = 0
    · simp [cString, hc]
    · have hcons : ∀ rest : Bytes, cString (c :: rest) = c :: cString rest := fun rest =>
        List.takeWhile_cons_of_pos (by simpa using hc)
      rw [List.cons_append, hcons, hcons, ih]

/-! Once the form is read, every call of `form_data` answers the same. -/

section Answers

variable {a : Apache}

lemma formData_kept {t : ArgTable} (c : Call) {r : Request} (h : r.formData = some t) :
    (perform a c r).2.formData = some t := by
  cases c with
  | content callback =>
    obtain ⟨data, rest, n, error, -, hcontent, -⟩ := content_spec a callback r
    change (content a callback r).2.formData = some t
    rw [hcontent]
    exact h
  | formData =>
    change (formData a r).2.formData = some t
    rw [formData, h]
    exact h
  | readLine =>
    change (readLine a r).2.formData = some t
    cases hread : r.hasReadContent with
    | true =>
      rw [readLine_ended a hread]
      exact h
    | false =>
      obtain ⟨data, rest, n, ended, error, -, hline, -, -⟩ := readLine_spec a hread
      rw [hline]
      exact h
  | read len =>
    change (read a len r).2.formData = some t
    cases hread : r.hasReadContent with
    | true =>
      rw [read_ended a hread]
      exact h
    | false =>
      obtain ⟨data, rest, n, ended, error, -, hdata, -⟩ := read_spec a hread len
      rw [hdata]
      exact h

structure Answered (t : ArgTable) (s : Session) : Prop where
  kept : s.request.formData = some t
  answers : ∀ t', .formData t' ∈ s.answers → t' = some t

lemma answer_formData {c : Call} {r : Request} {t' : Option ArgTable}
    (h : (perform a c r).1 = .formData t') : c = .formData := by
  cases c with
  | content callback => cases h
  | formData => rfl
  | readLine =>
    change (readLine a r).1 = _ at h
    obtain ⟨line, hline, -⟩ := readLine_lineEnd a r
    rw [hline] at h
    cases h
  | read len =>
    change (read a len r).1 = _ at h
    unfold read at h
    split at h <;> cases h

lemma Answered.call {t : ArgTable} {s : Session} (h : Answered t s) (c : Call) :
    Answered t (call a c s) := by
  refine ⟨formData_kept c h.kept, fun t' hmem => ?_⟩
  rcases List.mem_append.mp hmem with hmem | hmem
  · exact h.answers t' hmem
  · have hanswer := (List.mem_singleton.mp hmem).symm
    obtain rfl := answer_formData hanswer
    change (formData a s.request).1 = _ at hanswer
    rw [formData, h.kept] at hanswer
    exact (Answer.formData.inj hanswer).symm

lemma Answered.run {t : ArgTable} {s : Session} (h : Answered t s) (calls : List Call) :
    Answered t (Transition.run (Body.call a) calls s) :=
  run_invariant (fun c _ _ h => h.call c) (along_of_forall (fun _ _ => trivial) s) h

structure Waiting (body : Bytes) (s : Session) : Prop where
  unparsed : Unparsed body s.request
  answers : ∀ t : Option ArgTable, .formData t ∉ s.answers

lemma Waiting.content (hok : ∀ n, a.blockFails n = false) {body : Bytes} {s : Session}
    (h : Waiting body s) : Waiting body (Body.call a (.content false) s) := by
  refine ⟨(content_unparsed hok h.unparsed).2.2, fun t hmem => ?_⟩
  rcases List.mem_append.mp hmem with hmem | hmem
  · exact h.answers t hmem
  · cases List.mem_singleton.mp hmem

lemma waiting_session (hok : ∀ n, a.blockFails n = false) (body : Bytes) {calls : List Call}
    (hcalls : ∀ c ∈ calls, c = .content false) : Waiting body (session a calls body) := by
  have hfresh : Waiting body ⟨fresh body, []⟩ := ⟨⟨rfl, rfl⟩, fun t => List.not_mem_nil⟩
  refine run_invariant (fun c s hc hs => ?_) (along_of_forall hcalls _) hfresh
  subst hc
  exact hs.content hok

lemma Waiting.formData (hok : ∀ n, a.blockFails n = false) {contentType : Bytes}
    (htype : a.contentType = some contentType) (hform : urlencoded <:+: contentType)
    {body : Bytes} {s : Session} (h : Waiting body s) :
    (Body.call a .formData s).answers =
        s.answers ++ [.formData (some (parseQueryString (body ++ [0]) []))] ∧
      Answered (parseQueryString (body ++ [0]) []) (Body.call a .formData s) := by
  obtain ⟨-, hcontent, -, -⟩ := content_whole hok s.request
  rw [h.unparsed.split] at hcontent
  have hanswers : (Body.call a .formData s).answers =
      s.answers ++ [.formData (some (parseQueryString (body ++ [0]) []))] := by
    simp only [Body.call, perform, Body.formData, h.unparsed.table, htype, hform, if_true, hcontent]
  refine ⟨hanswers, ?_, fun t' hmem => ?_⟩
  · simp only [Body.call, perform, Body.formData, h.unparsed.table, htype, hform, if_true, hcontent]
  · rw [hanswers] at hmem
    rcases List.mem_append.mp hmem with hmem | hmem
    · exact absurd hmem (h.answers t')
    · exact Answer.formData.inj (List.mem_singleton.mp hmem)

lemma answers_grow (calls : List Call) (s : Session) :
    s.answers <+: (Transition.run (Body.call a) calls s).answers := by
  induction calls generalizing s with
  | nil => exact List.prefix_refl _
  | cons c calls ih => exact (List.prefix_append _ _).trans (ih (Body.call a c s))

end Answers

/-- However the body arrives and whatever is called after the first `form_data`, every `form_data`
answers the one table whose value under a key is made of all arguments of the body with that key. -/
theorem form_answers {a : Apache} (hok : ∀ n, a.blockFails n = false) {contentType : Bytes}
    (htype : a.contentType = some contentType) (hform : urlencoded <:+: contentType)
    (body : Bytes) {before : List Call} (hbefore : ∀ c ∈ before, c = .content false)
    (after : List Call) :
    ∃ t, .formData (some t) ∈ (session a (before ++ .formData :: after) body).answers ∧
      (∀ t', .formData t' ∈ (session a (before ++ .formData :: after) body).answers →
        t' = some t) ∧
      Table.Distinct foldKey t ∧
      ∀ key, Table.get foldKey t key = valuesUnder key (arguments (cString body)) := by
  have hsession : session a (before ++ .formData :: after) body =
      Transition.run (call a) after (call a .formData (session a before body)) := run_append _ _ _
  obtain ⟨hanswers, hanswered⟩ := (waiting_session hok body hbefore).formData hok htype hform
  refine ⟨parseQueryString (body ++ [0]) [], ?_, ?_, ?_, fun key => ?_⟩
  · rw [hsession]
    apply (answers_grow after _).mem
    rw [hanswers]
    exact List.mem_append_right _ List.mem_cons_self
  · rw [hsession]
    exact (hanswered.run after).answers
  · have hnil : Table.Distinct foldKey ([] : ArgTable) := List.nodup_nil
    rw [parseQueryString_eq]
    exact Table.distinct_mergeEach _ _ hnil _
  · rw [get_parsed, cString_concat_nul]

-- The body is `K=1&x&k=%32`.
theorem two_values_joined :
    let s := session calmApache [.content false, .formData, .read 3, .formData]
      [75, 61, 49, 38, 120, 38, 107, 61, 37, 51, 50]
    ∃ t, .formData (some t) ∈ s.answers ∧ Table.get foldKey t [107] = some [49, 44, 32, 50] := by
  obtain ⟨t, hmem, -, -, hget⟩ := @form_answers calmApache (fun _ => rfl) urlencoded rfl
    (List.infix_refl urlencoded) [75, 61, 49, 38, 120, 38, 107, 61, 37, 51, 50] [.content false]
    (by simp) [.read 3, .formData]
  refine ⟨t, hmem, ?_⟩
  rw [hget]
  decide

end ModGate.Body
